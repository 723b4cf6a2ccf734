import NetatalkClient.Dsi.Framing
import NetatalkClient.Dsi.Unmatched
import NetatalkClient.Dsi.Runt
import NetatalkClient.Dsi.Requests
import NetatalkClient.Dsi.RequestIds
import NetatalkClient.Afp.Forks
import NetatalkClient.Afp.Reconnect
import NetatalkClient.Daemon.Handles
import NetatalkClient.Codepage.MacRoman
import NetatalkClient.Dsi.ReadReplies
import NetatalkClient.Afp.Leftovers
import NetatalkClient.Metadata.Sidecar
import NetatalkClient.Metadata.SidecarStore
import NetatalkClient.Metadata.EaStore
import NetatalkClient.Discovery.Store
import NetatalkClient.Daemon.Paging
import NetatalkClient.Daemon.Metadata
import NetatalkClient.Dsi.OpenSession
import NetatalkClient.Afp.SetParms
import NetatalkClient.Lowlevel.Read
import NetatalkClient.Midlevel.Reports
import NetatalkClient.Lowlevel.Locking
import NetatalkClient.Lowlevel.DirtyFlag
import NetatalkClient.Afp.ListingEnds
import NetatalkClient.Midlevel.Truncation
import NetatalkClient.Midlevel.ReadBack
import NetatalkClient.Cmdline.Download
import NetatalkClient.Daemon.Volumes
import NetatalkClient.Uam.SrpParameters
import NetatalkClient.Uam.ChangePassword
import NetatalkClient.Daemon.Transfers
import NetatalkClient.Midlevel.InternalAttributes
import NetatalkClient.Codepage.Codec
import NetatalkClient.Fuse.Commands
import NetatalkClient.Afp.Status
import NetatalkClient.Afp.Url
import NetatalkClient.Codepage.Sanitize
import NetatalkClient.Fuse.Clients
import NetatalkClient.Cmdline.Arguments
