import LinuxFff.LoginSoundness
import LinuxFff.SignInRace
import LinuxFff.LedLatch
import LinuxFff.BufferRace
import LinuxFff.DeviceProduct
import LinuxFff.ByteStore
import LinuxFff.PlainNoLoss
import LinuxFff.TlsExactlyOnce
import LinuxFff.LogOrder
import LinuxFff.PeerClose
import LinuxFff.Attribution
import LinuxFff.RelayFidelity
import LinuxFff.DescriptorLeak
import LinuxFff.TlsCliLifetimes
import LinuxFff.Registries
import LinuxFff.PrinterLocks
import LinuxFff.InitAtomicity
import LinuxFff.DriverLifecycle
import LinuxFff.ProbeBalance
import LinuxFff.PlainCredentials
import LinuxFff.ChatHistory
import LinuxFff.SignInRoundTrip
import LinuxFff.HandshakeFraming
import LinuxFff.TlsSlots
import LinuxFff.CliRegistry
import LinuxFff.BufferRows
import LinuxFff.FailedWrite
import LinuxFff.OwnWrite
import LinuxFff.RetryingWriter
import LinuxFff.Authenticate
import LinuxFff.MenuTermination
import LinuxFff.LoginTranscript
import LinuxFff.FileStrings
import LinuxFff.OneLinePerPrompt
import LinuxFff.LiveAndLogged
import LinuxFff.ArrayAccesses
import LinuxFff.BufferBounds
import LinuxFff.I2cValue
import LinuxFff.DescriptorReuse
import LinuxFff.DeviceRegisters
import LinuxFff.I2cSender
import LinuxFff.SpinlockDemo
import LinuxFff.KeyLoop
import LinuxFff.LedPin
import LinuxFff.SharedCounter
import LinuxFff.CounterRace
import LinuxFff.StreamOrder
import LinuxFff.TlsProgress
import LinuxFff.FileMutex
import LinuxFff.LedApplication
import LinuxFff.AccountChat
import LinuxFff.ModuleLifecycle
import LinuxFff.LedCharDevice
import LinuxFff.LoginService
import LinuxFff.PipeLoop
import LinuxFff.ConditionVariable
import LinuxFff.I2cModule
import LinuxFff.PlainMutex
import LinuxFff.PlainStreams
import LinuxFff.UnlockedLog
