import LiveDataflow.Batch
import LiveDataflow.Config.Source
import LiveDataflow.JsonForm
import LiveDataflow.Proofs.Acyclic
import LiveDataflow.Proofs.Cluster
import LiveDataflow.Proofs.Trial
import LiveDataflow.Proofs.WellWired
import LiveDataflow.Proofs.Course
import LiveDataflow.Proofs.Abandoned
import LiveDataflow.Proofs.Downstream
import LiveDataflow.Proofs.Simultaneous
import LiveDataflow.Proofs.Indexes
import LiveDataflow.Proofs.Concert
import LiveDataflow.Proofs.Interchange
import LiveDataflow.Proofs.Consumers
import LiveDataflow.Proofs.Packing
import LiveDataflow.Proofs.FixedPoint
import LiveDataflow.Proofs.FirstLayout
import LiveDataflow.Proofs.Standing
import LiveDataflow.Proofs.Restored
import LiveDataflow.Proofs.Materializable
import LiveDataflow.Proofs.Visit
import LiveDataflow.Proofs.Paths
import LiveDataflow.Proofs.Writes
import LiveDataflow.Proofs.Rearranged
import LiveDataflow.Proofs.Properties
import LiveDataflow.Proofs.Addresses
import LiveDataflow.Proofs.Roles
import LiveDataflow.Proofs.Tokens
import LiveDataflow.Proofs.Forms
import LiveDataflow.Proofs.Fields
import LiveDataflow.Proofs.Lossless
