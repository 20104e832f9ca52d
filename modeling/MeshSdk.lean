import MeshSdk.Go
import MeshSdk.Types
import MeshSdk.Asserter.Basic
import MeshSdk.Asserter.Block
import MeshSdk.Asserter.Ordering
import MeshSdk.Asserter.Construction
import MeshSdk.Asserter.Relax
import MeshSdk.Asserter.Certify
import MeshSdk.Asserter.Totality
import MeshSdk.Asserter.Duplicates
import MeshSdk.Asserter.Accounting
import MeshSdk.Asserter.Specification
import MeshSdk.Parser.Match
import MeshSdk.Parser.Pass
import MeshSdk.Parser.Partition
import MeshSdk.Parser.Soundness
import MeshSdk.Parser.Represent
import MeshSdk.Parser.FirstFit
import MeshSdk.Parser.Totality
import MeshSdk.Parser.Groups
import MeshSdk.Parser.Complete
import MeshSdk.Parser.Relax
