import Mathlib.Data.Stream.Init
import Mathlib.Tactic

/-!
# Buffers that are refilled

A reader takes cells out of a buffer and jumps over cells of it.  Whenever the
buffer has run dry it is filled again, with the same cells each time.

What such a reader sees is one endless stream: what is left in the buffer, and
the refill over and over.  `upcoming` is that stream.  Refilling an empty buffer
does not change it, taking a cell takes its head, and jumping over cells drops
them, however many times the buffer has to be filled on the way.
-/

namespace Refill

variable {β : Type}

/-- What a reader asks for: the next cell, or to jump over some. -/
inductive Request where
  | next
  | jump (n : Nat)

/-- The cells that a stream hands out when it is asked so. -/
def answers : List Request → Stream' β → List β
  | [], _ => []
  | .next :: requests, cells => cells.head :: answers requests cells.tail
  | .jump n :: requests, cells => answers requests (cells.drop n)

variable {refill : List β} (hrefill : refill ≠ [])

/-- The stream of a reader with `left` in its buffer. -/
def upcoming (left : List β) : Stream' β := left ++ₛ Stream'.cycle refill hrefill

/-- **Filling an empty buffer** is not seen. -/
theorem upcoming_nil : upcoming hrefill [] = upcoming hrefill refill :=
  Stream'.cycle_eq refill hrefill

theorem upcoming_cons_head (b : β) (left : List β) : (upcoming hrefill (b :: left)).head = b :=
  rfl

/-- Cells that are all in the buffer are dropped there. -/
theorem upcoming_drop {n : Nat} {left : List β} (h : n ≤ left.length) :
    (upcoming hrefill left).drop n = upcoming hrefill (left.drop n) := by
  have hlen : (left.take n).length = n := List.length_take_of_le h
  have hsplit : upcoming hrefill left =
      left.take n ++ₛ (left.drop n ++ₛ Stream'.cycle refill hrefill) := by
    rw [← Stream'.append_append_stream, List.take_append_drop]
    rfl
  have hdrop := Stream'.drop_append_stream (left.take n)
    (left.drop n ++ₛ Stream'.cycle refill hrefill)
  rw [hlen, ← hsplit] at hdrop
  exact hdrop

/-- A jump past the end of the buffer goes on in the refill. -/
theorem upcoming_drop_past {n : Nat} {left : List β} (h : left.length ≤ n) :
    (upcoming hrefill left).drop n = (upcoming hrefill refill).drop (n - left.length) := by
  have hall := upcoming_drop hrefill (Nat.le_refl left.length)
  rw [List.drop_length, upcoming_nil] at hall
  rw [← hall, Stream'.drop_drop]
  congr 1
  omega

end Refill
