import VpnMgr.Client.Aftermath
import VpnMgr.Client.AllowedIps
import VpnMgr.Client.Bracketing
import VpnMgr.Client.Conduct
import VpnMgr.Client.Connect
import VpnMgr.Client.DefaultRoute
import VpnMgr.Client.DeviceSearch
import VpnMgr.Client.DeviceTracking
import VpnMgr.Client.DnsRestore
import VpnMgr.Client.Ending
import VpnMgr.Client.Events
import VpnMgr.Client.Footprint
import VpnMgr.Client.GeneratedCommands
import VpnMgr.Client.Host
import VpnMgr.Client.Keeping
import VpnMgr.Client.LogStamps
import VpnMgr.Client.OpenVpn
import VpnMgr.Client.OpenVpnLog
import VpnMgr.Client.OuterPath
import VpnMgr.Client.OwnLink
import VpnMgr.Client.PidFiles
import VpnMgr.Client.Ppp
import VpnMgr.Client.PppEnding
import VpnMgr.Client.PppRelay
import VpnMgr.Client.RemoteCommand
import VpnMgr.Client.RemoteDevice
import VpnMgr.Client.RemotePrivilege
import VpnMgr.Client.RemoteTables
import VpnMgr.Client.Resolv
import VpnMgr.Client.ResolvAtomic
import VpnMgr.Client.ResolvFiles
import VpnMgr.Client.Route
import VpnMgr.Client.RouteOrder
import VpnMgr.Client.ShellSync
import VpnMgr.Client.Ssh
import VpnMgr.Client.SshConfigFile
import VpnMgr.Client.TunTap
import VpnMgr.Client.UpDown
import VpnMgr.Client.Watch
import VpnMgr.Client.WatchDrivers
import VpnMgr.Client.Wireguard
import VpnMgr.Command.Format
import VpnMgr.Command.FoundCommands
import VpnMgr.Command.Open
import VpnMgr.Command.Outcome
import VpnMgr.Command.PasswordDomains
import VpnMgr.Command.PasswordReplay
import VpnMgr.Command.Passwords
import VpnMgr.Command.Privilege
import VpnMgr.Command.Quoting
import VpnMgr.Command.ReadLoop
import VpnMgr.Command.Timeouts
import VpnMgr.Command.Trial
import VpnMgr.CommandLine
import VpnMgr.Common
import VpnMgr.Config.Deletion
import VpnMgr.Config.Fields
import VpnMgr.Config.FileSettings
import VpnMgr.Config.HomeMapping
import VpnMgr.Config.KeyMaterial
import VpnMgr.Config.Privileges
import VpnMgr.Config.Read
import VpnMgr.Config.Records
import VpnMgr.Config.RoundTrip
import VpnMgr.Config.ServerLine
import VpnMgr.Config.Store
import VpnMgr.Config.StoreMap
import VpnMgr.Config.Write
import VpnMgr.Config.WrittenRecords
import VpnMgr.Ctx
import VpnMgr.LibUseful.Duration
import VpnMgr.LibUseful.FileAccess
import VpnMgr.LibUseful.FileSystem
import VpnMgr.LibUseful.FlatDirectory
import VpnMgr.LibUseful.Glob
import VpnMgr.LibUseful.IpAddress
import VpnMgr.LibUseful.LinkFree
import VpnMgr.LibUseful.Links
import VpnMgr.LibUseful.QuotedTokens
import VpnMgr.LibUseful.RmDir
import VpnMgr.LibUseful.SearchPath
import VpnMgr.LibUseful.StrLenCache
import VpnMgr.LibUseful.Stream
import VpnMgr.LibUseful.StringList
import VpnMgr.LibUseful.Strings
import VpnMgr.LibUseful.TimedStream
import VpnMgr.LibUseful.TokenChars
import VpnMgr.LibUseful.Tokenizer
import VpnMgr.LibUseful.Url
import VpnMgr.LibUseful.Vars
import VpnMgr.Machine.Channels
import VpnMgr.Machine.Contract
import VpnMgr.Machine.FileTree
import VpnMgr.Machine.Files
import VpnMgr.Machine.Flags
import VpnMgr.Machine.Halting
import VpnMgr.Machine.Interleaving
import VpnMgr.Machine.Ipv4
import VpnMgr.Machine.LastWrite
import VpnMgr.Machine.Process
import VpnMgr.Machine.RoutingTable
import VpnMgr.Machine.Run
import VpnMgr.Net
import VpnMgr.Options
import VpnMgr.Options.CleanContext
import VpnMgr.Options.Dispatch
import VpnMgr.Options.Precedence
import VpnMgr.Options.SavedAlike
import VpnMgr.Relays
import VpnMgr.Server.Accepting
import VpnMgr.Server.Addresses
import VpnMgr.Server.Auth
import VpnMgr.Server.Connections
import VpnMgr.Server.Isolation
import VpnMgr.Server.Lasting
import VpnMgr.Server.Relay
import VpnMgr.Shell.Arguments
import VpnMgr.Shell.Blanks
import VpnMgr.Shell.LineWords
import VpnMgr.Shell.Nesting
import VpnMgr.Shell.Words
import VpnMgr.Text.CString
import VpnMgr.Text.Decimal
