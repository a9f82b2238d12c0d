import PhaseSampling.Checkpoint.Manifest
import PhaseSampling.Checkpoint.Table
import PhaseSampling.Chunks
import PhaseSampling.Command.Desk
import PhaseSampling.Command.Options
import PhaseSampling.Replay
import PhaseSampling.Simpoint.Json
import PhaseSampling.Sink

/-!
# The commands

* `bbv` collects the vectors of a run's intervals.
* `cpt` takes checkpoints at the warmups of simpoints.
* `chunk` takes checkpoints at a fixed distance.

`Command.run` reads the arguments of a command and does its work.
-/

namespace PhaseSampling

inductive Command where
  | bbv
  | cpt
  | chunk
  deriving DecidableEq, Repr

namespace Command

open Work

/-- The command of a name. -/
def ofName? : String → Option Command
  | "bbv" => some .bbv
  | "cpt" => some .cpt
  | "chunk" => some .chunk
  | _ => none

def controllerOption : OptionSpec := ⟨"controller", some 'c', .text, none⟩

def outdirOption : OptionSpec := ⟨"outdir", some 'o', .path, some "m5out"⟩

def options : Command → List OptionSpec
  | .bbv => [
      controllerOption,
      ⟨"bbv", none, .path, none⟩,
      ⟨"bbvinfo", none, .path, none⟩,
      ⟨"warmup", some 'w', .word, none⟩,
      ⟨"interval", some 'i', .word, none⟩,
      ⟨"tolerance", some 't', .word, some "2"⟩,
      ⟨"waypoints", none, .flag, some "false"⟩,
      ⟨"compression", none, .choice ["none", "zstd", "gzip"], some "none"⟩]
  | .cpt => [
      controllerOption,
      ⟨"simpoints-json", some 's', .path, none⟩,
      ⟨"waypoints", none, .flag, some "false"⟩,
      outdirOption,
      ⟨"final-end-slack", none, .word, some "0"⟩]
  | .chunk => [
      controllerOption,
      ⟨"interval", some 'i', .word, none⟩,
      ⟨"warmup", some 'w', .word, none⟩,
      ⟨"lead-in", none, .word, some "10000"⟩,
      outdirOption]

/-- The packing of a compression's name. -/
def packing : String → Packing
  | "zstd" => .zstd
  | "gzip" => .gzip
  | _ => .plain

/-- The numbers of the system calls by which a program exits. -/
def exitCalls : List Nat := [60, 231]

/-- Files what a sampling run wrote. A stream that is packed on the way is lost when the run fails
before its end; one that a filter packs is not. -/
def fileVectors (path : String) (p : Packing) (failed : Bool) (written : Bytes) : Work Unit :=
  let lost := failed && p == .zstd
  change fun t =>
    (t.writeFile path (if lost then .plain else p) (if lost then [] else written)).mapError .system

def runBbv (o : Options) : Work Unit := do
  let c : SamplingConfig :=
    ⟨o.word "warmup", o.word "interval", o.word "tolerance", o.flag "waypoints"⟩
  look fun _ => c.validate
  let lengths := s!"Warmup {c.warmup} instructions, interval {c.interval} instructions"
  print s!"{lengths}, tolerance {c.tolerance}x"
  launch
  for call in exitCalls do
    withController (Controller.sysbreak call)
  let path := o.text "bbv"
  let p := packing (o.text "compression")
  change fun t => Sink.create t path p
  let (r, written) ← drive (runSampling Controller.engine c)
  fileVectors path p r.toOption.isNone written
  let records ← look fun _ => r
  shutdown
  let info := o.text "bbvinfo"
  change fun t => (t.writeFile info .plain []).mapError .system
  let (r, out) := IntervalRecord.writeInfo .unbounded records
  change fun t => (t.writeFile info .plain out.toBytes).mapError .system
  look fun _ => r
  let degraded := (records.filter (!·.wellFormed)).length
  print s!"Collected {records.length} intervals, {degraded} of them degraded"
  print s!"Basic block vectors written to {path}"
  print s!"Interval info written to {info}"

/-- Prints the checkpoints and writes their manifest. -/
def report (created outdir : String) (counter : Counter) (cps : List Checkpoint) : Work Unit := do
  printText (Checkpoint.table cps)
  let m : Manifest := ⟨created, counter, cps⟩
  change fun t => (m.save t outdir).map (·.2)
  print s!"Checkpoint manifest written to {manifestPath outdir}"

def runCpt (created : String) (o : Options) : Work Unit := do
  let path := o.text "simpoints-json"
  print s!"Loading SimPoint result from {path}"
  let ps ← look fun t => Simpoint.load t path
  look fun _ => Simpoint.validate ps
  print s!"Got {ps.length} simpoints"
  let outdir ← openDir (o.text "outdir")
  let c : ReplayConfig :=
    ⟨outdir, if o.flag "waypoints" then .waypoint else .inst, o.word "final-end-slack"⟩
  launch
  let (r, _) ← drive ((replay c ps).run Controller.engine)
  let cps ← look fun _ => r
  shutdown
  report created outdir c.counter cps

def runChunk (created : String) (o : Options) : Work Unit := do
  let outdir ← openDir (o.text "outdir")
  let c : ChunkConfig := ⟨outdir, o.word "interval", o.word "warmup", o.word "lead-in"⟩
  launch
  let (r, _) ← drive (runChunks Controller.engine c)
  let cps ← look fun _ => r
  shutdown
  report created outdir .inst cps

/-- Does the work of a command. `created` is the time to put into a manifest. -/
def work (created : String) : Command → Options → Work Unit
  | .bbv, o => runBbv o
  | .cpt, o => runCpt created o
  | .chunk, o => runChunk created o

/-- How a command ended. -/
inductive Ending where
  | finished
  | failed (f : Fault)
  | refused (r : Refusal)
  deriving DecidableEq, Repr

/-- What `--version` prints. -/
def version : String := "pin-sampling 0.1.0"

/-- Reads the arguments of a command and does its work. -/
def run (c : Command) (created : String) (args : List String) (d : Desk) : Ending × Desk :=
  match Options.parse c.options args with
  | .error .version => (.refused .version, { d with printed := d.printed ++ version ++ "\n" })
  | .error r => (.refused r, d)
  | .ok o =>
    match (c.work created o).run.run d with
    | (.ok _, d) => (.finished, d)
    | (.error f, d) => (.failed f, d)

/-- The exit status of an ending. -/
def Ending.code : Ending → Nat
  | .finished => 0
  | .failed _ => 1
  | .refused .usage => 2
  | .refused _ => 0

end Command

end PhaseSampling
