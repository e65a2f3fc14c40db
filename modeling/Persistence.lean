import Persistence.Document.Declaration
import Persistence.Document.Operation
import Persistence.Document.Script
import Persistence.Entity.Inspect
import Persistence.MySql.Address
import Persistence.Program.Lifecycle
import Persistence.Proofs.Calendar.ReadBack
import Persistence.Proofs.Cascade.Listing
import Persistence.Proofs.Cascade.Narrowing
import Persistence.Proofs.Cascade.Termination
import Persistence.Proofs.Catalog.Noting
import Persistence.Proofs.Dao.Flagging
import Persistence.Proofs.Dao.KeyDelete
import Persistence.Proofs.Dao.KeyUpdate
import Persistence.Proofs.Dao.Matching
import Persistence.Proofs.Dao.Names
import Persistence.Proofs.Dao.ReadBack
import Persistence.Proofs.Dao.Sparing
import Persistence.Proofs.Dao.Unfolding
import Persistence.Proofs.Declaration.Keys
import Persistence.Proofs.Declaration.Words
import Persistence.Proofs.Lifecycle.Interleaving
import Persistence.Proofs.Lifecycle.Ordering
import Persistence.Proofs.Lifecycle.Retry
import Persistence.Proofs.MySql.Documents
import Persistence.Proofs.MySql.Points
import Persistence.Proofs.Query.Absence
import Persistence.Proofs.Query.Patterns
import Persistence.Proofs.Schema.Convergence
import Persistence.Proofs.Schema.Creation
import Persistence.Proofs.Schema.Reading
import Persistence.Proofs.Sql.Pieces
import Persistence.Sample.Entities
import Persistence.Scripted.Database
import Persistence.Scripted.Server
