import Ps2Servers.Udpfs.Probe
import Ps2Servers.Udpfs.Copies
import Ps2Servers.Udpfs.Progress
import Ps2Servers.Edge.SharedWriters
import Ps2Servers.Edge.Batched
import Ps2Servers.Udpbd.Delivery
import Ps2Servers.Twins.Writes
import Ps2Servers.Twins.Containers
import Ps2Servers.CueBin.Views
import Ps2Servers.DiscIdentity.Inspection
import Ps2Servers.Exfat.RoundTrip
import Ps2Servers.Exfat.Sizing
import Ps2Servers.Exfat.Upcase
import Ps2Servers.Smb1.Fids
import Ps2Servers.Smb1.Listings
import Ps2Servers.Smb1.Openable
import Ps2Servers.Smb1.Panics
import Ps2Servers.Smb2.Delivery
import Ps2Servers.Smb2.Handles
import Ps2Servers.Smb2.Confinement
import Ps2Servers.Smb2.Passwords
import Ps2Servers.Http.FlatList
import Ps2Servers.Http.PathAware
import Ps2Servers.Http.KeepAlive
import Ps2Servers.Ra.Evaluated
import Ps2Servers.Router.Status
import Ps2Servers.DirectLink.Rehome
import Ps2Servers.Sessions.Twins
import Ps2Servers.WebUi.Confinement
import Ps2Servers.WebUi.LogStream
import Ps2Servers.WebUi.RoundTrip
