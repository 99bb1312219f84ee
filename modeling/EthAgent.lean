import EthAgent.Lib.Runs
import EthAgent.Lib.Probing
import EthAgent.Lib.Presence
import EthAgent.Lib.CString
import EthAgent.Lib.Packed
import EthAgent.Lib.Interleaving
import EthAgent.Lib.CondVar
import EthAgent.Lib.Bridging
import EthAgent.Lib.Tokens
import EthAgent.Lib.Sweeping
import EthAgent.Lib.Filling
import EthAgent.Lib.Scanf
import EthAgent.Lib.Inet6
import EthAgent.Lib.Fgets
import EthAgent.Lib.Latest
import EthAgent.Lib.StaleLookup
import EthAgent.Lib.Wrapping
import EthAgent.Lib.SparseScan
import EthAgent.Lib.Cycling
import EthAgent.Lib.Bits
import EthAgent.Lib.Settling
import EthAgent.Lib.Mirror
import EthAgent.Lib.Simulation
import EthAgent.Lib.ProbingSet
import EthAgent.Lib.Watched
import EthAgent.Lib.Masks
import EthAgent.Device
import EthAgent.HostTable
import EthAgent.HostMonitor
import EthAgent.PortTable
import EthAgent.PortRows
import EthAgent.PhyPath
import EthAgent.LinkMachine
import EthAgent.LinkAgent
import EthAgent.ValidationGate
import EthAgent.WriteThrough
import EthAgent.PortSections
import EthAgent.LinkQueue
import EthAgent.EthWanMode
import EthAgent.WanModeChange
import EthAgent.WanTopology
import EthAgent.LinkDown
import EthAgent.PhyRequests
import EthAgent.InterfaceRows
import EthAgent.SetTransaction
import EthAgent.InterfaceTable
import EthAgent.InterfaceIdentity
import EthAgent.UpstreamStore
import EthAgent.AliasTransactions
import EthAgent.LanBridge
import EthAgent.EntryChanges
import EthAgent.LinkEvents
import EthAgent.WanModeRollback
import EthAgent.HostReconcile
import EthAgent.RowStrings
import EthAgent.AssociatedDevices
import EthAgent.HexText
import EthAgent.Ipv6Prefix
import EthAgent.Ipv6AddrInfo
import EthAgent.InterfaceStats
import EthAgent.PortMapping
import EthAgent.PathLookup
import EthAgent.PortCapability
import EthAgent.WanNotify
import EthAgent.BootInform
import EthAgent.EventPublication
import EthAgent.LoggerThread
import EthAgent.SsidLookups
import EthAgent.InstanceAllocation
import EthAgent.Netmask
import EthAgent.LinkTypes
import EthAgent.HostProbes
import EthAgent.MemberRemoval
import EthAgent.EthernetLog
import EthAgent.LinkFifo
import EthAgent.LinkRest
import EthAgent.LmliteSync
import EthAgent.HostSet
import EthAgent.BootTopology
import EthAgent.TelemetrySettings
import EthAgent.BootSync
import EthAgent.LinkOwner
import EthAgent.LinkHeld
import EthAgent.LinkAgreement
import EthAgent.OutageRecovery
import EthAgent.WanName
import EthAgent.RbusProperties
import EthAgent.CapabilityStore
import EthAgent.Subnets
import EthAgent.InterfaceReads
import EthAgent.SelectedMode
