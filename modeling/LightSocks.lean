import LightSocks.Config
import LightSocks.KeyText
import LightSocks.Client.Isolation
import LightSocks.Client.Stranded
import LightSocks.Server.Ownership
import LightSocks.Server.Resolver
import LightSocks.Server.Announcement
import LightSocks.Server.Attendance
import LightSocks.Server.AddressTypes
import LightSocks.Server.Bounds
import LightSocks.Server.Segmentation
import LightSocks.Server.Flush
import LightSocks.Server.Faults
import LightSocks.Server.Workload
import LightSocks.Provenance
import LightSocks.Shutdown
import LightSocks.Tunnel
