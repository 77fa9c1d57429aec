import QHal.Proofs.RramDxeWrite
import QHal.Proofs.NtRramStale
import QHal.Proofs.NtOtpLocks
import QHal.Proofs.UpdateFwd
import QHal.Proofs.SegmentLoad
import QHal.Proofs.HashCoverage
import QHal.Proofs.FuseVersion
import QHal.Proofs.AntiRollback
import QHal.Proofs.RramResidency
import QHal.Proofs.TornLoad
import QHal.Proofs.RingWakeups
import QHal.Proofs.DxeFrames
import QHal.Proofs.UnpaRequests
import QHal.Proofs.FpciDispatch
import QHal.Proofs.HresTimer
import QHal.Proofs.SlpClkCal
import QHal.Proofs.DescPool
import QHal.Proofs.NvmFlash
import QHal.Proofs.DevcfgParse
import QHal.Proofs.QspiCommand
import QHal.Proofs.NvmCommands
import QHal.Proofs.GenFwdTable
import QHal.Qfdt.FrnFwdTable
import QHal.Proofs.FrnFwdTable
import QHal.Nvm.OtpField
import QHal.Proofs.OtpField
import QHal.Bdf.Bin2Txt
import QHal.Proofs.BdfFields
import QHal.Proofs.BdfRoundTrip
import QHal.Proofs.BdfChecksum
import QHal.Nvm.NvmRram
import QHal.Proofs.NvmAttach
import QHal.Proofs.OtpPermissions
import QHal.Flash.FlashDriver
import QHal.Lib.Steps
import QHal.Proofs.FlashCommands
import QHal.Proofs.FlashErase
import QHal.Proofs.FlashPages
import QHal.Proofs.FlashCalls
import QHal.Proofs.EventRelay
import QHal.Lib.Threads
import QHal.Proofs.WmiCommands
import QHal.Proofs.WmiWakeups
import QHal.Hex.HexFile
import QHal.Nvm.Download
import QHal.Proofs.Download
import QHal.Bdf.MultiTxtBin
import QHal.Boot.SblShare
import QHal.Nvm.RramDriver
import QHal.Proofs.Checksum
import QHal.Proofs.FlashReadReports
import QHal.Proofs.HexImage
import QHal.Proofs.MultiTxtBin
import QHal.Proofs.QspiFifo
import QHal.Proofs.RramFill
import QHal.Proofs.SblShare
import QHal.Proofs.StartBlocks
import QHal.Proofs.HexCalls
import QHal.Hex.HexParse
import QHal.Hex.HexWrite
import QHal.Proofs.HexParse
import QHal.Proofs.HexSessions
import QHal.Boot.SysLoader
import QHal.Proofs.SysLoader
import QHal.Boot.RollbackVersion
import QHal.Lib.BitCount
import QHal.Proofs.BlWrite
import QHal.Proofs.CalData
import QHal.Proofs.NtMemXip
import QHal.Proofs.RollbackVersion
import QHal.Dxe.Suspend
import QHal.Lib.Owners
import QHal.Proofs.DxeSuspend
import QHal.Proofs.QurtTimer
import QHal.Proofs.RingMemory
import QHal.Proofs.UnpaClients
import QHal.Boot.DfuHost
import QHal.Lib.Fair
import QHal.Proofs.DfuChannel
import QHal.Proofs.DfuPasses
import QHal.Proofs.DfuTransfer
import QHal.Lib.Distinct
import QHal.Lib.FifoQueue
import QHal.Proofs.FdiPairing
import QHal.Proofs.LockReads
import QHal.Proofs.PioFifo
import QHal.Proofs.ScanResults
import QHal.Proofs.HashedBoot
import QHal.Proofs.DxeReceive
import QHal.Gdb.Client
import QHal.Proofs.GdbClient
