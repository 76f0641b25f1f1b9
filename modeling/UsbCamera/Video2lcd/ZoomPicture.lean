import UsbCamera.Video2lcd.PictureMemory

/-!
# Zooming a picture in memory

`PicZoom` takes for each pixel of the target the source pixel at the same fraction of
the width and the height, rounded down.  The source columns come from a table that is
filled first.  For sizes up to 65535 the products fit 32 bits, and a column below the
target's width always leads to one below the source's (`scaled_lt`), however the two
compare.
-/

namespace Video2lcd.InMemory

open ByteStore CInt Copies Raster Address

/-- A source picture and a target of the same depth, of sizes between 1 and 65535. -/
structure Zoomable (origin zoom : Picture) (w h stride w' h' stride' p : Nat) : Prop where
  source : Placed origin w h p stride
  target : Placed zoom w' h' p stride'
  width : 1 ≤ w ∧ w ≤ 65535
  height : 1 ≤ h ∧ h ≤ 65535
  width' : 1 ≤ w' ∧ w' ≤ 65535
  height' : 1 ≤ h' ∧ h' ≤ 65535
  apart : Apart origin (stride * h) zoom (stride' * h')

/-- The source coordinate of a target coordinate exists. -/
theorem scaled_lt {x size size' : Nat} (hx : x < size') (hsize : 1 ≤ size) :
    x * size / size' < size := by
  apply Nat.div_lt_of_lt_mul
  exact Nat.mul_lt_mul_of_pos_right hx hsize

/-- A source coordinate is computed without overflow. -/
theorem scaled_eq {x size size' : Nat} (iSize iSize' : Int32) (hx : x < size')
    (hsize : size ≤ 65535) (hsize' : size' ≤ 65535) (hi : iSize.toInt = size)
    (hi' : iSize'.toInt = size') :
    UInt32.ofNat x * iSize.toUInt32 / iSize'.toUInt32 = UInt32.ofNat (x * size / size') := by
  have hprod : x * size ≤ 65535 * 65535 := Nat.mul_le_mul (by omega) hsize
  have hdiv : x * size / size' ≤ x * size := Nat.div_le_self _ _
  apply UInt32.toNat_inj.mp
  rw [UInt32.toNat_div, UInt32.toNat_mul, UInt32.toNat_ofNat', UInt32.toNat_ofNat',
    toNat_of_toInt hi, toNat_of_toInt hi', Nat.mod_eq_of_lt (by omega : x < 2 ^ 32),
    Nat.mod_eq_of_lt (by omega : x * size < 2 ^ 32), Nat.mod_eq_of_lt (by omega)]

/-- The table of source columns. -/
theorem srcXTable_eq (iOriginWidth iZoomWidth : UInt32) (n : Nat) (x : UInt32) :
    srcXTable iOriginWidth iZoomWidth n x =
      (List.range n).map fun i => (x + UInt32.ofNat i) * iOriginWidth / iZoomWidth := by
  exact index.map_rounds (fun x => x * iOriginWidth / iZoomWidth) (fun _ => rfl)
    (fun _ _ => rfl) n x

/-- The copies of one line. -/
theorem zoomLine_eq (dwPixelBytes pucDest pucSrc : UInt32) (n : Nat) (srcX : Nat → UInt32)
    (x : UInt32) :
    zoomLine dwPixelBytes pucDest pucSrc ((List.range n).map srcX) x =
      (List.range n).map fun i =>
        ⟨(pucDest + (x + UInt32.ofNat i) * dwPixelBytes).toNat,
          (pucSrc + srcX i * dwPixelBytes).toNat, dwPixelBytes.toNat⟩ := by
  induction n generalizing x srcX with
  | zero => rfl
  | succ n ih =>
      rw [List.range_succ_eq_map, List.map_cons, List.map_cons, List.map_map, List.map_map,
        zoomLine, ih, index_zero]
      congr 1
      apply List.map_congr_left
      intro i _
      rw [index_next]
      rfl

/-- The copies of all lines. -/
theorem zoomLines_eq (origin zoom : Picture) (table : List UInt32) (n : Nat) (y : UInt32) :
    zoomLines origin zoom table n y =
      (List.range n).flatMap fun i =>
        let dwSrcY := (y + UInt32.ofNat i) * origin.iHeight.toUInt32 / zoom.iHeight.toUInt32
        zoomLine (origin.iBpp / 8).toUInt32
          (zoom.aucPixelDatas + (y + UInt32.ofNat i) * zoom.iLineBytes.toUInt32)
          (origin.aucPixelDatas + dwSrcY * origin.iLineBytes.toUInt32) table 0 := by
  exact index.flatMap_rounds (fun y =>
      let dwSrcY := y * origin.iHeight.toUInt32 / zoom.iHeight.toUInt32
      zoomLine (origin.iBpp / 8).toUInt32 (zoom.aucPixelDatas + y * zoom.iLineBytes.toUInt32)
        (origin.aucPixelDatas + dwSrcY * origin.iLineBytes.toUInt32) table 0) (fun _ => rfl)
    (fun _ _ => rfl) n y

namespace Zoomable

variable {origin zoom : Picture} {w h stride w' h' stride' p : Nat}

/-- The source pixel of a target pixel lies inside the source. -/
theorem source_le (hz : Zoomable origin zoom w h stride w' h' stride' p) {x y : Nat}
    (hx : x < w') (hy : y < h') :
    y * h / h' * stride + x * w / w' * p + p ≤ stride * h := by
  have hline : y * h / h' * stride + stride ≤ stride * h := line_le (scaled_lt hy hz.height.1)
  have hcol : x * w / w' * p + p ≤ w * p := pixel_before (scaled_lt hx hz.width.1)
  have hroom := hz.source.room
  omega

/-- A target pixel lies inside the target. -/
theorem target_le (hz : Zoomable origin zoom w h stride w' h' stride' p) {x y : Nat}
    (hx : x < w') (hy : y < h') : y * stride' + x * p + p ≤ stride' * h' := by
  have hline : y * stride' + stride' ≤ stride' * h' := line_le hy
  have hcol : x * p + p ≤ w' * p := pixel_before hx
  have hroom := hz.target.room
  omega

/-- The bytes of a pixel. -/
theorem pixel_bytes (hz : Zoomable origin zoom w h stride w' h' stride' p) :
    (origin.iBpp / 8).toUInt32.toNat = p := by
  have hdepth := hz.source.depth
  apply toNat_of_toInt
  rw [toInt_div_eight (by omega)]
  omega

/-- The copies `PicZoom` makes once it has its table. -/
theorem copies_eq (hz : Zoomable origin zoom w h stride w' h' stride' p) :
    zoomLines origin zoom (srcXTable origin.iWidth.toUInt32 zoom.iWidth.toUInt32
        zoom.iWidth.toUInt32.toNat 0) zoom.iHeight.toUInt32.toNat 0 =
      (List.range h').flatMap fun y => (List.range w').map fun x =>
        ⟨zoom.aucPixelDatas.toNat + (y * stride' + x * p),
          origin.aucPixelDatas.toNat + (y * h / h' * stride + x * w / w' * p), p⟩ := by
  have hline : origin.iLineBytes.toUInt32.toNat = stride := toNat_of_toInt hz.source.line
  have hline' : zoom.iLineBytes.toUInt32.toNat = stride' := toNat_of_toInt hz.target.line
  have hfits := hz.source.fits
  have hfits' := hz.target.fits
  rw [srcXTable_eq, zoomLines_eq, toNat_of_toInt hz.target.width, toNat_of_toInt hz.target.height]
  apply List.flatMap_congr
  intro y hy
  have hy' : y < h' := List.mem_range.mp hy
  rw [zoomLine_eq]
  apply List.map_congr_left
  intro x hx
  have hx' : x < w' := List.mem_range.mp hx
  have hsource := hz.source_le hx' hy'
  have htarget := hz.target_le hx' hy'
  simp only [UInt32.zero_add]
  rw [scaled_eq _ _ hx' hz.width.2 hz.width'.2 hz.source.width hz.target.width,
    scaled_eq _ _ hy' hz.height.2 hz.height'.2 hz.source.height hz.target.height]
  rw [toNat_two_steps hline' hz.pixel_bytes (by omega),
    toNat_two_steps hline hz.pixel_bytes (by omega), hz.pixel_bytes]

/-- The bytes of the table of source columns. -/
theorem table_bytes (hz : Zoomable origin zoom w h stride w' h' stride' p) :
    (4 * zoom.iWidth.toUInt32).toNat = 4 * w' := by
  have hwidth := hz.width'
  have hfour : (4 : UInt32).toNat = 4 := rfl
  rw [UInt32.toNat_mul, toNat_of_toInt hz.target.width, hfour]
  omega

/-- The depths are the same. -/
theorem depths (hz : Zoomable origin zoom w h stride w' h' stride' p) :
    ¬ origin.iBpp ≠ zoom.iBpp := by
  rw [not_not]
  apply Int32.toInt.inj
  rw [hz.source.depth, hz.target.depth]

/-- The table is there. -/
theorem table_some (hz : Zoomable origin zoom w h stride w' h' stride' p) {malloc : Malloc}
    (hmalloc : (malloc (4 * w')).isSome) :
    ¬ (malloc (4 * zoom.iWidth.toUInt32).toNat).isNone := by
  rw [hz.table_bytes]
  simpa [Option.isSome_iff_ne_none] using hmalloc

/-- What `PicZoom` does if it gets its table. -/
theorem call_eq (hz : Zoomable origin zoom w h stride w' h' stride' p) {malloc : Malloc}
    (hmalloc : (malloc (4 * w')).isSome) :
    picZoom malloc origin zoom =
      ⟨0, (List.range h').flatMap fun y => (List.range w').map fun x =>
        ⟨zoom.aucPixelDatas.toNat + (y * stride' + x * p),
          origin.aucPixelDatas.toNat + (y * h / h' * stride + x * w / w' * p), p⟩⟩ := by
  rw [picZoom, if_neg hz.depths, if_neg (hz.table_some hmalloc)]
  exact congrArg (Call.mk 0) hz.copies_eq

/-- `PicZoom` never reads what it has written. -/
theorem separate (hz : Zoomable origin zoom w h stride w' h' stride' p) {malloc : Malloc}
    (hmalloc : (malloc (4 * w')).isSome) : Separate (picZoom malloc origin zoom).copies := by
  rw [hz.call_eq hmalloc]
  intro c hc d hd
  obtain ⟨y, hy, hc⟩ := List.mem_flatMap.mp hc
  obtain ⟨x, hx, rfl⟩ := List.mem_map.mp hc
  obtain ⟨v, hv, hd⟩ := List.mem_flatMap.mp hd
  obtain ⟨u, hu, rfl⟩ := List.mem_map.mp hd
  have hsource := hz.source_le (List.mem_range.mp hx) (List.mem_range.mp hy)
  have htarget := hz.target_le (List.mem_range.mp hu) (List.mem_range.mp hv)
  have hapart := hz.apart
  unfold Apart at hapart
  simp only
  omega

/-- Every pixel of the target becomes the nearest one of the source. -/
theorem overlaysAt (hz : Zoomable origin zoom w h stride w' h' stride' p) {malloc : Malloc}
    (hmalloc : (malloc (4 * w')).isSome) (m : Memory) :
    OverlaysAt zoom.aucPixelDatas.toNat ⟨0, 0, w', h'⟩ stride' p
      (fun x y => pixel (window m origin.aucPixelDatas.toNat) stride p (x * w / w') (y * h / h'))
      m ((picZoom malloc origin zoom).after m) := by
  have hpieces : (picZoom malloc origin zoom).copies.map (Copy.piece m) =
      (pixels ⟨0, 0, w', h'⟩ stride' p fun x y =>
        pixel (window m origin.aucPixelDatas.toNat) stride p (x * w / w') (y * h / h')).map
          fun piece => (zoom.aucPixelDatas.toNat + piece.1, piece.2) := by
    rw [hz.call_eq hmalloc, pixels, List.map_flatMap, List.map_flatMap]
    apply List.flatMap_congr
    intro y _
    rw [List.map_map, List.map_map]
    apply List.map_congr_left
    intro x _
    simp only [Copy.piece, Function.comp_apply, pixel, read_window, Nat.zero_add]
  unfold Call.after
  rw [run_eq_writeAll (hz.separate hmalloc), hpieces]
  apply overlaysAt_of_pieces
  apply overlays_pixels
  · simpa using hz.target.room
  · intro x y
    exact length_read _ _ _

end Zoomable

/-- Pictures of different depths are refused. -/
theorem picZoom_depths {malloc : Malloc} {origin zoom : Picture}
    (hdepths : origin.iBpp ≠ zoom.iBpp) : picZoom malloc origin zoom = refused := by
  rw [picZoom, if_pos hdepths]

/-- **Nearest neighbour.**  With its table, `PicZoom` returns 0, it reads source pixels
only, each pixel of the target becomes the one of the source at the same fraction of
width and height, and nothing else changes.  Without a table, or for different depths,
it returns -1 and changes nothing. -/
theorem picZoom_nearest_neighbour {origin zoom : Picture}
    {w h stride w' h' stride' p : Nat} (hz : Zoomable origin zoom w h stride w' h' stride' p)
    (malloc : Malloc) :
    ((malloc (4 * w')).isSome →
      (picZoom malloc origin zoom).ret = 0 ∧
      (∀ c ∈ (picZoom malloc origin zoom).copies, ∃ x < w', ∃ y < h',
        x * w / w' < w ∧ y * h / h' < h ∧
        c = ⟨zoom.aucPixelDatas.toNat + (y * stride' + x * p),
          origin.aucPixelDatas.toNat + (y * h / h' * stride + x * w / w' * p), p⟩) ∧
      ∀ m, OverlaysAt zoom.aucPixelDatas.toNat ⟨0, 0, w', h'⟩ stride' p
        (fun x y => pixel (window m origin.aucPixelDatas.toNat) stride p (x * w / w') (y * h / h'))
        m ((picZoom malloc origin zoom).after m)) ∧
    (malloc (4 * w') = none →
      (picZoom malloc origin zoom).ret = -1 ∧ ∀ m, (picZoom malloc origin zoom).after m = m) ∧
    ∀ origin' zoom' : Picture, origin'.iBpp ≠ zoom'.iBpp →
      (picZoom malloc origin' zoom').ret = -1 ∧
        ∀ m, (picZoom malloc origin' zoom').after m = m := by
  refine ⟨fun hmalloc => ⟨?_, ?_, hz.overlaysAt hmalloc⟩, fun hnone => ?_, fun o z hdepths => ?_⟩
  · rw [hz.call_eq hmalloc]
  · intro c hc
    rw [hz.call_eq hmalloc] at hc
    obtain ⟨y, hy, hc⟩ := List.mem_flatMap.mp hc
    obtain ⟨x, hx, rfl⟩ := List.mem_map.mp hc
    have hx' := List.mem_range.mp hx
    have hy' := List.mem_range.mp hy
    exact ⟨x, hx', y, hy', scaled_lt hx' hz.width.1, scaled_lt hy' hz.height.1, rfl⟩
  · have hrefused : picZoom malloc origin zoom = refused := by
      rw [picZoom, hz.table_bytes, hnone]
      simp
    rw [hrefused]
    exact ⟨rfl, fun m => rfl⟩
  · rw [picZoom_depths hdepths]
    exact ⟨rfl, fun m => rfl⟩

/-- Three columns from two: the middle one is the first one once more. -/
theorem three_columns_from_two :
    let origin : Picture := ⟨2, 1, 8, 2, 2, 0x100⟩
    let zoom : Picture := ⟨3, 1, 8, 4, 4, 0x200⟩
    let malloc : Malloc := fun _ => some fun _ => 0
    (picZoom malloc origin zoom).ret = 0 ∧
      OverlaysAt 0x200 ⟨0, 0, 3, 1⟩ 4 1
        (fun x y => pixel (window (fun a => UInt8.ofNat a) 0x100) 2 1 (x * 2 / 3) (y * 1 / 1))
        (fun a => UInt8.ofNat a) ((picZoom malloc origin zoom).after fun a => UInt8.ofNat a) := by
  intro origin zoom malloc
  have hz : Zoomable origin zoom 2 1 2 3 1 4 1 :=
    ⟨⟨rfl, rfl, rfl, rfl, by decide, by decide⟩, ⟨rfl, rfl, rfl, rfl, by decide, by decide⟩,
      by decide, by decide, by decide, by decide, Or.inl (by decide)⟩
  have hzoom := (picZoom_nearest_neighbour hz malloc).1 rfl
  exact ⟨hzoom.1, hzoom.2.2 _⟩

/-- In the block of the target, `PicZoom` leaves what it leaves of blocks. -/
theorem picZoom_window {origin zoom : Picture} {w h stride w' h' stride' p : Nat}
    (hz : Zoomable origin zoom w h stride w' h' stride' p) {malloc : Malloc}
    (hmalloc : (malloc (4 * w')).isSome) (m : Memory) (size size' : Nat) :
    Video2lcd.picZoom malloc (Picture.block origin m size) (Picture.block zoom m size') =
      (0, Picture.block zoom ((picZoom malloc origin zoom).after m) size') := by
  have hpixels : zoomPixels (Picture.block origin m size) (Picture.block zoom m size') =
      pixels ⟨0, 0, w', h'⟩ stride' p fun x y =>
        pixel (window m origin.aucPixelDatas.toNat) stride p (x * w / w') (y * h / h') := by
    have hfits := hz.source.fits
    have hfits' := hz.target.fits
    unfold zoomPixels pixels
    simp only [Picture.block, hz.pixel_bytes, toNat_of_toInt hz.target.width,
      toNat_of_toInt hz.target.height]
    apply List.flatMap_congr
    intro y hy
    have hy' : y < h' := List.mem_range.mp hy
    apply List.map_congr_left
    intro x hx
    have hx' : x < w' := List.mem_range.mp hx
    have hsource := hz.source_le hx' hy'
    have htarget := hz.target_le hx' hy'
    have hcol := scaled_lt hx' hz.width.1
    have hwidth := hz.width
    rw [scaled_eq _ _ hx' hz.width.2 hz.width'.2 hz.source.width hz.target.width,
      scaled_eq _ _ hy' hz.height.2 hz.height'.2 hz.source.height hz.target.height,
      toNat_lines_mod, toNat_lines_mod, toNat_of_toInt hz.source.line,
      toNat_of_toInt hz.target.line, UInt32.toNat_ofNat', Nat.mod_eq_of_lt (by omega),
      Nat.mod_eq_of_lt (by omega), Nat.mod_eq_of_lt (by omega), Nat.zero_add, Nat.zero_add]
    rfl
  have hbytes : window ((picZoom malloc origin zoom).after m) zoom.aucPixelDatas.toNat =
      writeAll (window m zoom.aucPixelDatas.toNat)
        (zoomPixels (Picture.block origin m size) (Picture.block zoom m size')) := by
    rw [hpixels]
    refine (overlays_pixels ?_ ?_ _).unique (hz.overlaysAt hmalloc m).behind
    · simpa using hz.target.room
    · intro x y
      exact length_read _ _ _
  have hdepths : ¬ (Picture.block origin m size).iBpp ≠ (Picture.block zoom m size').iBpp :=
    hz.depths
  have htable : ¬ (malloc (4 * (Picture.block zoom m size').iWidth.toUInt32).toNat).isNone :=
    hz.table_some hmalloc
  have hblock : Picture.block zoom ((picZoom malloc origin zoom).after m) size' =
      { zoom with aucPixelDatas := .block ⟨size', writeAll (window m zoom.aucPixelDatas.toNat)
        (zoomPixels (Picture.block origin m size) (Picture.block zoom m size'))⟩ } := by
    rw [Picture.block, hbytes]
  rw [Video2lcd.picZoom, if_neg hdepths, if_neg htable, hblock]
  rfl

end Video2lcd.InMemory
