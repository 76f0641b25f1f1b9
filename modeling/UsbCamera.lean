import UsbCamera.Myuvc.Reassembly
import UsbCamera.Myuvc.Starvation
import UsbCamera.Myuvc.QueueHeads
import UsbCamera.Myuvc.Sessions
import UsbCamera.Myuvc.UrbLifecycle
import UsbCamera.Myuvc.HotPlug
import UsbCamera.Myuvc.Mappings
import UsbCamera.Myuvc.ControlCodec
import UsbCamera.Myuvc.Negotiation
import UsbCamera.Myuvc.FrameStart
import UsbCamera.Myuvc.HeaderRepair
import UsbCamera.Video2lcd.InitDevice
import UsbCamera.Video2lcd.FrameLoop
import UsbCamera.Video2lcd.ConvertBuffer
import UsbCamera.Video2lcd.Display
import UsbCamera.Video2lcd.VideoMemSharing
import UsbCamera.Video2lcd.AccessMethod
import UsbCamera.Cmos.ScalerControl
import UsbCamera.Cmos.CaptureMemory
import UsbCamera.Alsa.Uda1341
import UsbCamera.Myvivi.Handles
import UsbCamera.Myvivi.FillSize
import UsbCamera.Myuvc.Controls
import UsbCamera.Video2lcd.PixelPaths
import UsbCamera.Base.Copies
import UsbCamera.Video2lcd.PictureMemory
import UsbCamera.Video2lcd.MergePictures
import UsbCamera.Video2lcd.ZoomPicture
import UsbCamera.Video2lcd.RectFill
import UsbCamera.Base.Accesses
import UsbCamera.Video2lcd.InitUndo
import UsbCamera.Video2lcd.JpegErrors
import UsbCamera.Video2lcd.Bmp
import UsbCamera.Video2lcd.BmpBounds
import UsbCamera.Alsa.IisClock
import UsbCamera.Cmos.AcceptedFormats
import UsbCamera.Cmos.PreviewEvents
import UsbCamera.Myuvc.UrbGeometry
import UsbCamera.Video2lcd.LineConverters
import UsbCamera.Video2lcd.CenterText
import UsbCamera.Base.LinkedList
import UsbCamera.Video2lcd.ConvertManager
import UsbCamera.Base.FloatRounding
import UsbCamera.Base.Refill
import UsbCamera.Myvivi.Delivery
import UsbCamera.Video2lcd.JpegSource
import UsbCamera.Video2lcd.ScaleToScreen
import UsbCamera.Video2lcd.ShownFrames
import UsbCamera.Myuvc.FetchedFrames
import UsbCamera.Video2lcd.CameraToDecoder
import UsbCamera.Video2lcd.ColorTables
import UsbCamera.Video2lcd.Framebuffer
import UsbCamera.Video2lcd.Startup
import UsbCamera.Cmos.CapturedPictures
import UsbCamera.Video2lcd.Buttons
import UsbCamera.Myuvc.WholeFrames
import UsbCamera.Video2lcd.PictureFiles
import UsbCamera.Video2lcd.InitOnDriver
import UsbCamera.Video2lcd.VirtualCamera
