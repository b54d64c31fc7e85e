import Robocon.Lib.Run
import Robocon.Lib.Buffer
import Robocon.Lib.Stream
import Robocon.Lib.Trunc
import Robocon.Lib.Turns
import Robocon.Lib.Crc
import Robocon.Lib.Binary32
import Robocon.Lib.Words
import Robocon.Lib.Buckets
import Robocon.Lib.Ring
import Robocon.Lib.Text
import Robocon.Lib.Window
import Robocon.Lib.Distance
import Robocon.Lib.Coding
import Robocon.Lib.Linked
import Robocon.Serial.RingBuffer
import Robocon.Serial.Driver
import Robocon.Serial.Thread
import Robocon.Serial.Delivery
import Robocon.FDILink.CrcTable
import Robocon.FDILink.Status
import Robocon.FDILink.Tracking
import Robocon.FDILink.Pack
import Robocon.FDILink.Published
import Robocon.FDILink.Accepted
import Robocon.FDILink.Crc16
import Robocon.FDILink.Bitwise
import Robocon.FDILink.Burst
import Robocon.FDILink.Sending
import Robocon.FDILink.Encoders
import Robocon.FDILink.Distance
import Robocon.FDILink.Channel
import Robocon.FDILink.Thread
import Robocon.Trajectory.Planning
import Robocon.Trajectory.Bounds
import Robocon.Trajectory.Course
import Robocon.Motors.Layer
import Robocon.Motors.Command
import Robocon.Motors.LastCommand
import Robocon.Motors.Levels
import Robocon.Motors.Stop
import Robocon.Motors.Clock
import Robocon.Motors.Outputs
import Robocon.Motors.PlannedMove
import Robocon.Chassis.Layer
import Robocon.Chassis.Mai
import Robocon.Chassis.Omni3
import Robocon.Chassis.Pose
import Robocon.Chassis.MaiOps
import Robocon.Dji.Config
import Robocon.Dji.Search
import Robocon.Dji.Driver
import Robocon.Dji.Current
import Robocon.Dji.Foreign
import Robocon.Dji.Divisors
import Robocon.Dji.Slots
import Robocon.Dji.TotalAngle
import Robocon.Dji.GroupFrames
import Robocon.Dji.NonInterference
import Robocon.Dji.Calibration
import Robocon.Dji.Live
import Robocon.Dji.ControlThread
import Robocon.Abus.Hash
import Robocon.Abus.Bus
import Robocon.Abus.Reachable
import Robocon.Abus.Delivery
import Robocon.Abus.Async
import Robocon.Abus.Unsubscribe
import Robocon.Abus.Accounts
import Robocon.Abus.Missing
import Robocon.Abus.Referenced
import Robocon.Abus.ByName
import Robocon.Abus.Map
import Robocon.Abus.Newest
import Robocon.Abus.Removal
import Robocon.Abus.Access
import Robocon.Abus.Echo
import Robocon.Abus.EchoLines
import Robocon.Chassis.Port
import Robocon.StateMachine.Control
import Robocon.StateMachine.LifeCycle
import Robocon.StateMachine.Finish
import Robocon.StateMachine.Restart
import Robocon.StateMachine.ByName
import Robocon.Remote.Ibus
import Robocon.Remote.Decoding
import Robocon.Remote.Resync
import Robocon.Remote.NewPackage
import Robocon.Remote.Thread
import Robocon.Action.Odometry
import Robocon.Stepper.Line
import Robocon.Stepper.Genuine
import Robocon.Stepper.Waiting
import Robocon.Stepper.Decoding
import Robocon.Stepper.Wire
import Robocon.Servo.Package
import Robocon.Servo.Framing
import Robocon.Servo.Checksum
import Robocon.Servo.Receiving
import Robocon.Servo.Driver
import Robocon.Servo.Replies
import Robocon.Servo.Waiting
import Robocon.Servo.SetPoints
import Robocon.Flow.Verified
import Robocon.Flow.Upixels
import Robocon.Vision.Visual
import Robocon.Vision.Cutting
import Robocon.Vision.Rejecting
import Robocon.Filters.Filter
import Robocon.Filters.Sliding
import Robocon.Filters.Resizing
import Robocon.Filters.Mean
import Robocon.Can.Device
import Robocon.Can.Opening
import Robocon.Can.Refinement
import Robocon.Can.Accounting
