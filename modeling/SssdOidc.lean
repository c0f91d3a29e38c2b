import SssdOidc.Probing
import SssdOidc.UniqueTable
import SssdOidc.Program
import SssdOidc.Runs
import SssdOidc.Murmur3
import SssdOidc.Mapping
import SssdOidc.Model
import SssdOidc.Database
import SssdOidc.Cache
import SssdOidc.Service
import SssdOidc.System
import SssdOidc.Protocol
import SssdOidc.Conformance
import SssdOidc.History
import SssdOidc.Solo
import SssdOidc.Stability
import SssdOidc.ProbeChain
import SssdOidc.Home
import SssdOidc.Allocation
import SssdOidc.GroupIds
import SssdOidc.ReverseLookup
import SssdOidc.Offline
import SssdOidc.Revocation
import SssdOidc.Agreement
import SssdOidc.LinearProbing
import SssdOidc.ConfigFile
import SssdOidc.Overflow
import SssdOidc.Atomicity
import SssdOidc.Packing
import SssdOidc.Enumeration
import SssdOidc.Oidc
import SssdOidc.Discovery
import SssdOidc.DeviceFlow
import SssdOidc.Pam
import SssdOidc.Snapshots
import SssdOidc.Membership
import SssdOidc.ForeignGroups
import SssdOidc.OfflineGroups
import SssdOidc.InitGroups
import SssdOidc.Layout
import SssdOidc.CStrings
import SssdOidc.Scim
import SssdOidc.Pagination
import SssdOidc.Thinning
import SssdOidc.Purging
import SssdOidc.Handouts
import SssdOidc.LostWrites
import SssdOidc.OddGroups
import SssdOidc.PercentEncoding
import SssdOidc.Uri
import SssdOidc.ById
import SssdOidc.RelyGuarantee
import SssdOidc.Provenance
import SssdOidc.Nss
import SssdOidc.Delivery
import SssdOidc.Capacity
import SssdOidc.Threads
import SssdOidc.Executors
import SssdOidc.Forgetting
import SssdOidc.Interfaces
import SssdOidc.Transport
import SssdOidc.Login
import SssdOidc.Requests
import SssdOidc.Applications
import SssdOidc.Listings
import SssdOidc.Startup
import SssdOidc.Conversation
import SssdOidc.Coexistence
