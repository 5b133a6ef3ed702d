import Stm32SecurityLab.Crash.Prog
import Stm32SecurityLab.Crash.Loop
import Stm32SecurityLab.Crash.Hazard
import Stm32SecurityLab.Crash.Logged
import Stm32SecurityLab.Crash.Refines
import Stm32SecurityLab.Crash.TwoCopy
import Stm32SecurityLab.Crash.TwoSlot
import Stm32SecurityLab.Layout
import Stm32SecurityLab.Bytes
import Stm32SecurityLab.Metadata.Record
import Stm32SecurityLab.Crc.Reflected
import Stm32SecurityLab.Crc.Burst
import Stm32SecurityLab.Metadata.Checksum
import Stm32SecurityLab.Metadata.Codec
import Stm32SecurityLab.Metadata.Transitions
import Stm32SecurityLab.Flash.BootFlash
import Stm32SecurityLab.Flash.Access
import Stm32SecurityLab.Flash.Device
import Stm32SecurityLab.Flash.Controller
import Stm32SecurityLab.Metadata.Journal
import Stm32SecurityLab.Metadata.Contents
import Stm32SecurityLab.Hash.Blocks
import Stm32SecurityLab.Hash.Sha512
import Stm32SecurityLab.Hash.Compress
import Stm32SecurityLab.Image.SignedImage
import Stm32SecurityLab.Image.Package
import Stm32SecurityLab.Image.Acceptance
import Stm32SecurityLab.Installer.Session
import Stm32SecurityLab.Installer.Frame
import Stm32SecurityLab.System.Store
import Stm32SecurityLab.Installer.Effect
import Stm32SecurityLab.Installer.Calls
import Stm32SecurityLab.Hash.Streaming
import Stm32SecurityLab.Installer.Quiet
import Stm32SecurityLab.Installer.Streaming
import Stm32SecurityLab.Installer.Content
import Stm32SecurityLab.Installer.Intake
import Stm32SecurityLab.Boot.SlotSelection
import Stm32SecurityLab.Boot.Decision
import Stm32SecurityLab.Installer.Bootstrap
import Stm32SecurityLab.Boot.Confirmation
import Stm32SecurityLab.Platform.Checksum
import Stm32SecurityLab.Platform.EventLog
import Stm32SecurityLab.Platform.RuntimeMonitor
import Stm32SecurityLab.Platform.VectorMonitor
import Stm32SecurityLab.Platform.Health
import Stm32SecurityLab.Platform.Confirmation
import Stm32SecurityLab.Platform.Telemetry
import Stm32SecurityLab.Platform.Application
import Stm32SecurityLab.System.Machine
import Stm32SecurityLab.System.Bootable
import Stm32SecurityLab.System.Update
import Stm32SecurityLab.System.Safety
import Stm32SecurityLab.System.Confinement
import Stm32SecurityLab.System.Trials
import Stm32SecurityLab.System.Recovery
import Stm32SecurityLab.Protocol.Parser
import Stm32SecurityLab.Protocol.Scanner
import Stm32SecurityLab.Protocol.Corruption
import Stm32SecurityLab.Host.Codec
import Stm32SecurityLab.Protocol.Session
import Stm32SecurityLab.Protocol.Service
import Stm32SecurityLab.Protocol.Stream
import Stm32SecurityLab.Host.Client
import Stm32SecurityLab.Host.Agreement
import Stm32SecurityLab.Host.Loss
import Stm32SecurityLab.Host.MemoryIntegrity
import Stm32SecurityLab.Host.Packages
import Stm32SecurityLab.Host.Status
import Stm32SecurityLab.Host.Simulation
import Stm32SecurityLab.Console.Editor
import Stm32SecurityLab.Console.Diagnostic
import Stm32SecurityLab.Console.Discipline
import Stm32SecurityLab.Console.Entry
import Stm32SecurityLab.Installer.Admission
import Stm32SecurityLab.Installer.Install
import Stm32SecurityLab.Installer.Hazard
import Stm32SecurityLab.Installer.Stranded
import Stm32SecurityLab.Installer.Contents
import Stm32SecurityLab.Installer.Bounds
import Stm32SecurityLab.System.Reports
import Stm32SecurityLab.Protocol.Garbage
import Stm32SecurityLab.Protocol.Reader
import Stm32SecurityLab.Protocol.Authority
import Stm32SecurityLab.Protocol.Delivery
import Stm32SecurityLab.Protocol.Exit
import Stm32SecurityLab.System.Deployments
import Stm32SecurityLab.ModuleInstall.Format
import Stm32SecurityLab.ModuleInstall.Catalog
import Stm32SecurityLab.ModuleInstall.Installer
import Stm32SecurityLab.ModuleInstall.Effect
import Stm32SecurityLab.ModuleInstall.Completed
import Stm32SecurityLab.ModuleInstall.Canonical
import Stm32SecurityLab.ModuleInstall.Floors
import Stm32SecurityLab.ModuleInstall.Confirmed
import Stm32SecurityLab.ModuleInstall.Quarantine
import Stm32SecurityLab.ModuleInstall.TornAppend
import Stm32SecurityLab.ModuleInstall.RecordCodec
import Stm32SecurityLab.Native.Payload
import Stm32SecurityLab.Native.Lifecycle
import Stm32SecurityLab.Bytecode.Vm
import Stm32SecurityLab.Bytecode.Sandbox
import Stm32SecurityLab.Bytecode.Noninterference
import Stm32SecurityLab.Bytecode.Assembler
import Stm32SecurityLab.Bytecode.Loader
import Stm32SecurityLab.Bytecode.Source
