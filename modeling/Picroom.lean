import Picroom.Transition.Run
import Picroom.Relational.Table
import Picroom.Domain.Uuid
import Picroom.Domain.Permission
import Picroom.Domain.Error
import Picroom.Domain.Entity
import Picroom.Domain.Key
import Picroom.Relational.Column
import Picroom.Relational.Matching
import Picroom.Relational.Ranked
import Picroom.Relational.Keyset
import Picroom.Relational.Constraint
import Picroom.Relational.Ties
import Picroom.Service.DenyOverrides
import Picroom.Service.Upload
import Picroom.Service.Ledger
import Picroom.Service.Visible
import Picroom.Service.Allowance
import Picroom.Api.Public
import Picroom.Api.FailedUpload
import Picroom.Api.ImageList
import Picroom.Api.ReadDeny
import Picroom.Api.Isolation
import Picroom.Session.Lockout
import Picroom.Worker.Queue
import Picroom.Worker.Exclusive
import Picroom.Worker.Schema
import Picroom.Worker.Finished
import Picroom.Worker.Deliveries
import Picroom.Worker.DeadLetter
import Picroom.Auth.Noninterference
import Picroom.S3.Binding
import Picroom.S3.Agreement
import Picroom.Web.Url
import Picroom.Storage.Containment
import Picroom.Storage.Distinct
import Picroom.Storage.Refinement
import Picroom.S3.Listing
import Picroom.Text.Markup
import Picroom.Storage.ListXml
import Picroom.S3.ListCodec
import Picroom.Storage.S3List
import Picroom.Service.Paging
import Picroom.Api.Audit
import Picroom.Service.AclReplace
import Picroom.Service.AclBackends
import Picroom.Worker.Variants
import Picroom.Api.UploadJobs
import Picroom.Worker.Backoff
import Picroom.Text.Fraction
import Picroom.Worker.Backends
import Picroom.Rate.Window
import Picroom.Api.RateLimit
import Picroom.Session.LoginAnswer
import Picroom.Auth.Oidc
import Picroom.Session.OidcState
import Picroom.Session.OidcProvision
import Picroom.Auth.Monotone
import Picroom.S3.CanonicalQuery
import Picroom.Storage.Addressing
import Picroom.Storage.Presign
import Picroom.S3.Authorization
import Picroom.S3.Skew
import Picroom.S3.Objects
import Picroom.Api.RetryAfter
import Picroom.Service.Remaining
import Picroom.Worker.Growth
import Picroom.Service.Cursor
import Picroom.Api.Roster
import Picroom.Api.PublicLink
import Picroom.S3.Gateway
import Picroom.Session.Administration
import Picroom.Session.Trail
import Picroom.Api.Lifecycle
import Picroom.Transition.Trace
import Picroom.Worker.Drained
import Picroom.S3.Router
import Picroom.Api.Membership
import Picroom.Relational.Stream
import Picroom.Admin.AuditTail
import Picroom.Desktop.Profiles
import Picroom.Transition.Simulation
import Picroom.Desktop.Vault
