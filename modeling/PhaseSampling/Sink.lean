import PhaseSampling.FileTree.Change
import PhaseSampling.Sink.Filter

/-!
# Output sinks

An output file that takes its bytes as they are, packs them, or gets them through a filter program.
Its content is settled when the sink is finished.
-/

namespace PhaseSampling

inductive Sink where
  | packed (packing : Packing)
  | piped (filter : Filter)

namespace Sink

/-- Makes the file of a packed sink, without content. -/
def create (t : FileTree) (path : String) (packing : Packing) : Except Fault FileTree :=
  (t.writeFile path packing []).mapError .system

/-- The packing and content that a file gets for some written bytes, and whether all went well. A
filter has to end without a fault. -/
def finish (s : Sink) (written : Bytes) : Packing × Bytes × Except Fault Unit :=
  match s with
  | .packed packing => (packing, written, .ok ())
  | .piped filter =>
    let r := filter written
    (.plain, r.output,
      if r.status = .exited 0 then .ok () else .error (.filter r.status))

end Sink

end PhaseSampling
