import SigrokDecode.Foundation.PackedBits
import SigrokDecode.Foundation.StepSystem
import SigrokDecode.Foundation.BlockMemory
import SigrokDecode.Foundation.WordBits
import SigrokDecode.Foundation.EdgeIntervals
import SigrokDecode.Foundation.BitFields
import SigrokDecode.Foundation.BitStuffing
import SigrokDecode.Foundation.Crc
import SigrokDecode.Instance.Types
import SigrokDecode.Instance.Pins
import SigrokDecode.Instance.PinAgreement
import SigrokDecode.Instance.Matcher
import SigrokDecode.Instance.Scan
import SigrokDecode.Instance.ScanProgress
import SigrokDecode.Instance.ConstantBlocks
import SigrokDecode.Instance.WaitLoop
import SigrokDecode.Instance.Chunks
import SigrokDecode.Instance.HandOff
import SigrokDecode.Instance.HandOffSafety
import SigrokDecode.Instance.WorkerEnd
import SigrokDecode.Instance.HandOffProgress
import SigrokDecode.Instance.SessionSend
import SigrokDecode.AnnBatch.Arena
import SigrokDecode.AnnBatch.Batch
import SigrokDecode.AnnBatch.Delivery
import SigrokDecode.AnnBatch.LegacyAgreement
import SigrokDecode.Loader.Annotations
import SigrokDecode.Decoders.PackedInput
import SigrokDecode.Decoders.TdmAudioFast
import SigrokDecode.Decoders.PwmCycles
import SigrokDecode.Decoders.CanRoundTrip
import SigrokDecode.Decoders.UsbPdExtended
import SigrokDecode.Decoders.UsbPacketJudgement
import SigrokDecode.Decoders.UsbSignallingRoundTrip
import SigrokDecode.Decoders.HdlcAgreement
import SigrokDecode.Decoders.FourB5BFraming
import SigrokDecode.Decoders.Pxx1Framing
import SigrokDecode.Decoders.I2cRoundTrip
import SigrokDecode.Decoders.AdatRoundTrip
import SigrokDecode.Decoders.ArmTpiuFraming
import SigrokDecode.Decoders.SpiAgreement
import SigrokDecode.Decoders.FlexRayVerdicts
import SigrokDecode.Decoders.ArmEtmv3Run
import SigrokDecode.Decoders.ModbusReception
import SigrokDecode.Decoders.Mvb
import SigrokDecode.Decoders.SpdifStartUp
import SigrokDecode.Decoders.OnewireCodes
import SigrokDecode.Decoders.JtagScans
import SigrokDecode.Decoders.SwdRequests
import SigrokDecode.Decoders.SdcardSdTraffic
import SigrokDecode.Decoders.LinVerdicts
import SigrokDecode.Decoders.InternetChecksum
import SigrokDecode.Decoders.Graycode
import SigrokDecode.Decoders.UdpStack
import SigrokDecode.Decoders.SpacewireRoundTrip
import SigrokDecode.Decoders.RffeFrames
import SigrokDecode.Decoders.Iso7816Sessions
import SigrokDecode.Decoders.Eeprom24xxReading
import SigrokDecode.Decoders.Eeprom24xxBounds
import SigrokDecode.Decoders.MdioSessions
import SigrokDecode.Decoders.MillerRoundTrip
import SigrokDecode.Decoders.UsbRequestSessions
import SigrokDecode.Loader.DecoderIds
import SigrokDecode.Session.Ownership
import SigrokDecode.Session.InUse
import SigrokDecode.Instance.EmptyWaits
import SigrokDecode.Instance.PackedWaits
import SigrokDecode.Decoders.UsbPacketBridge
import SigrokDecode.Decoders.TdmAudioEdges
import SigrokDecode.Decoders.DpAuxRecovery
import SigrokDecode.Instance.ChannelSetup
import SigrokDecode.AnnBatch.TextItems
import SigrokDecode.AnnBatch.FrontEnds
import SigrokDecode.Instance.OptionSetup
import SigrokDecode.Instance.FetchReleases
import SigrokDecode.Session.InstanceIds
import SigrokDecode.Instance.ExactScan
import SigrokDecode.Instance.TermOrder
import SigrokDecode.Instance.ZeroSkipRuns
import SigrokDecode.Decoders.TdmAudioSync
import SigrokDecode.Decoders.TdmAudioBatches
import SigrokDecode.Decoders.PwmFilter
import SigrokDecode.Decoders.DpAuxTiming
import SigrokDecode.Decoders.SbVerdicts
import SigrokDecode.Decoders.UartIdle
import SigrokDecode.Decoders.SpiWords
import SigrokDecode.Decoders.SpiTransfers
import SigrokDecode.Decoders.ArmItmModes
import SigrokDecode.Decoders.EthernetFrames
import SigrokDecode.Decoders.EthernetBounds
import SigrokDecode.Decoders.Em4100Synchronisation
import SigrokDecode.Decoders.SpdifSubframes
import SigrokDecode.Decoders.PjonFields
import SigrokDecode.Decoders.PjonBounds
import SigrokDecode.Decoders.RffeParity
