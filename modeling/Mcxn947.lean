import Mcxn947.AcceleratorResults
import Mcxn947.AdcLevels
import Mcxn947.CanRoundTrip
import Mcxn947.ClockTree
import Mcxn947.CtimerMatches
import Mcxn947.DacQueue
import Mcxn947.EdmaPulses
import Mcxn947.EdmaScatterGather
import Mcxn947.ElsPeriod
import Mcxn947.EnetInterrupts
import Mcxn947.EnetTransmit
import Mcxn947.FifoRequests
import Mcxn947.FlexcommEdma
import Mcxn947.FlexioOrder
import Mcxn947.FlexspiMirror
import Mcxn947.FmuRoundTrip
import Mcxn947.I3cReads
import Mcxn947.InputmuxGates
import Mcxn947.InputmuxTriggers
import Mcxn947.InterCore
import Mcxn947.Lpi2cStream
import Mcxn947.LpspiFrames
import Mcxn947.LptmrCompare
import Mcxn947.LpuartFlow
import Mcxn947.LpuartQueue
import Mcxn947.MrtPeriods
import Mcxn947.OstimerGray
import Mcxn947.PeriodicSnapshots
import Mcxn947.PwmFault
import Mcxn947.PwmOutputs
import Mcxn947.RegisterTraffic
import Mcxn947.ResetLines
import Mcxn947.SaiCoherence
import Mcxn947.SaiStream
import Mcxn947.SctRate
import Mcxn947.SoftwareReset
import Mcxn947.SysconCpu1
import Mcxn947.TcdImages
import Mcxn947.UsbAnnouncements
import Mcxn947.UsbdevLengths
import Mcxn947.UsbdevReplies
import Mcxn947.UsbfsControl
import Mcxn947.UsbfsHostMode
import Mcxn947.UsbfsInTransfers
import Mcxn947.UsbhsPriming
import Mcxn947.UsbhsTransfers
import Mcxn947.UsdhcCompletion
import Mcxn947.UsdhcDescriptors
import Mcxn947.UsdhcPort
