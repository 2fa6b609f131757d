import OpenSimp.Lib.Lines
import OpenSimp.Lib.Transition
import OpenSimp.Lib.Utf8
import OpenSimp.Lib.Framing
import OpenSimp.Lib.Sweep
import OpenSimp.Lib.Hub
import OpenSimp.Lib.Rounds
import OpenSimp.Server.Manage
import OpenSimp.Server.Clock
import OpenSimp.Room.System
import OpenSimp.Room.Accounts
import OpenSimp.Room.Emission
import OpenSimp.Room.Names
import OpenSimp.Room.Presence
import OpenSimp.Room.Casts
import OpenSimp.Room.Conduct
import OpenSimp.Room.Faults
import OpenSimp.Room.Spam
import OpenSimp.Clients.Rust
import OpenSimp.Clients.Window
import OpenSimp.Clients.Program
import OpenSimp.Clients.Cpp
import OpenSimp.Toy.Library
import OpenSimp.Properties.Rows
import OpenSimp.Properties.Aliases
import OpenSimp.Properties.Accounts
import OpenSimp.Properties.SessionKeys
import OpenSimp.Properties.Identity
import OpenSimp.Properties.Robustness
import OpenSimp.Properties.Decoding
import OpenSimp.Properties.Chat
import OpenSimp.Properties.Framing
import OpenSimp.Properties.Handshakes
import OpenSimp.Properties.Sessions
import OpenSimp.Properties.Agreement
import OpenSimp.Properties.Presence
import OpenSimp.Properties.Rosters
import OpenSimp.Properties.Logins
import OpenSimp.Properties.Memory
import OpenSimp.Properties.Separators
import OpenSimp.Properties.Parsers
import OpenSimp.Properties.SlashCommands
import OpenSimp.Properties.PacketSizes
import OpenSimp.Properties.Commands
import OpenSimp.Properties.Grammar
import OpenSimp.Properties.Credentials
import OpenSimp.Properties.Ciphers
import OpenSimp.Properties.DirectMessages
import OpenSimp.Properties.Sweeps
import OpenSimp.Properties.RateLimits
import OpenSimp.Properties.Relaying
import OpenSimp.Properties.Privacy
import OpenSimp.Properties.Views
import OpenSimp.Properties.Turns
import OpenSimp.Properties.Conduct
import OpenSimp.Properties.Transcripts
import OpenSimp.Properties.Phases
import OpenSimp.Properties.Textboxes
import OpenSimp.Properties.Conversations
import OpenSimp.Properties.Progress
import OpenSimp.Properties.Reception
import OpenSimp.Properties.Restarts
