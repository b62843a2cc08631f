import SV300.Energy.PowerLoss
import SV300.Energy.Handover
import SV300.Energy.Persist
import SV300.Energy.Month
import SV300.Energy.SaveRace
import SV300.Energy.Conserve
import SV300.Energy.Edits
import SV300.Energy.Slots
import SV300.Energy.Archive
import SV300.Modbus.ReadPaths
import SV300.Modbus.WritePaths
import SV300.Modbus.Whole
import SV300.Log.Event
import SV300.Log.Reload
import SV300.Quality.Report
import SV300.Quality.Statistics
import SV300.Quality.Window
import SV300.Quality.Handoff
import SV300.Energy.Throttle
import SV300.Web.EnergyLog
import SV300.Detect.Recovery
import SV300.Detect.Sequence
import SV300.Detect.Extent
import SV300.Detect.Capture
import SV300.Alarm.Delay
import SV300.Alarm.Chatter
import SV300.Log.Paging
import SV300.Fs.Delivery
import SV300.Feeder.Packing
import SV300.Feeder.Gain
import SV300.Feeder.Power
import SV300.Feeder.Payload
import SV300.Modbus.Footprint
import SV300.Modbus.CmdQueue
import SV300.Modbus.Snapshot
import SV300.Wave.Window
import SV300.Rms.Batches
import SV300.Settings.PowerCut
import SV300.Settings.Loads
import SV300.Snmp.Trap
import SV300.Snmp.Boots
import SV300.Quality.Trim
import SV300.Trend.Budget
import SV300.Trend.Record
import SV300.Modbus.Serial
import SV300.Mqtt.Payload
import SV300.Proxy.Sessions
import SV300.Demand.Predict
import SV300.Demand.Maximum
import SV300.Demand.DayLog
import SV300.Rms.Neutral
import SV300.Harmonics.Average
import SV300.Harmonics.Engines
import SV300.Rms.Recorder
import SV300.Wave.PreCapture
import SV300.Settings.HwSettings
import SV300.Settings.Comm
import SV300.Watchdog.Monitor
import SV300.Io.ScanDI
import SV300.Detect.Levels
import SV300.MaxMin.Interval
import SV300.MaxMin.Startup
import SV300.Quality.Deviation
import SV300.Fs.CaptureRotation
import SV300.Energy.ArchiveNames
import SV300.Fs.AgeKeys
import SV300.Fs.EventTrim
import SV300.Library.Checked
import SV300.Library.FixedRecords
import SV300.Library.SpikeRepair
import SV300.Wave.Despike
import SV300.Web.Access
import SV300.Ticks
import SV300.Settings.SaveOrders
import SV300.Rms.Sequence
import SV300.Fs.Deferred
