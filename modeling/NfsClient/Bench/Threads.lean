import NfsClient.Bench.Workloads

/-!
# The threads of a benchmark

The workloads that carry something from one turn to the next (workload_seqread.cpp,
workload_seqwrite.cpp, workload_meta.cpp), all six workloads by their names, and `run_workload` (main.cpp),
which runs one of them in any number of threads and adds up what they hand back. The elapsed time is left
out, which is that of the clock.

A thread has a client of its own. An exception ends the thread; it is printed, and what the thread has
counted until then stays counted (`worker`).
-/

namespace NfsClient

open Xdr Interaction

namespace Bench

/-! ### Turns that depend on the one before -/

/-- The loop of a worker that carries something from turn to turn. -/
def loopFrom {β : Type} (io : β → Turn → ClientM NFSClient (UInt64 × β)) :
    β → List Turn → ClientM Worker Unit
  | _, [] => return ()
  | x, t :: turns => do
    let n ← onClient (io x t)
    ClientM.assign fun w =>
      { w with res := w.res.push t.elapsed, ops := w.ops + 1, bytes := w.bytes + n.1 }
    loopFrom io n.2 turns

/-- A read at `offset`, and where the next one is: the file ends at its size or at an empty read. -/
def readOn (cfg : BenchConfig) (fh : Fh3) (offset : UInt64) (_ : Turn) :
    ClientM NFSClient (UInt64 × UInt64) := do
  let data ← call (.read fh offset cfg.bs)
  let n := UInt64.ofNat data.length
  return (n, if data = [] ∨ cfg.size ≤ offset + n then 0 else offset + n)

def seqread (workdir : Fh3) (cfg : BenchConfig) (turns : List Turn) : ClientM Worker Unit := do
  let fh ← onClient (call (.lookup workdir BENCH_FILE))
  loopFrom (readOn cfg fh) 0 turns

/-- A write at `offset`. The next one is behind what was stored of it. -/
def writeOn (cfg : BenchConfig) (fh : Fh3) (buf : Bytes) (offset : UInt64) (_ : Turn) :
    ClientM NFSClient (UInt64 × UInt64) := do
  let result ← call (.write fh offset cfg.stable buf)
  let n := result.count.toUInt64
  return (n, if cfg.size ≤ offset + n then 0 else offset + n)

def seqwrite (workdir : Fh3) (cfg : BenchConfig) (tid : ℕ) (turns : List Turn) :
    ClientM Worker Unit := do
  let fname := ascii ("bench_write_" ++ toString tid)
  let fh ← onClient (NFSClient.create workdir fname .UNCHECKED {})
  let buf := List.replicate cfg.bs.toNat 0xBC
  loopFrom (writeOn cfg fh buf) 0 turns
  onClient (call (.remove workdir fname))

/-- The name of the file of one turn. -/
def metaName (tid : ℕ) (seq : UInt64) : Bytes :=
  ascii ("m_" ++ toString tid ++ "_" ++ toString seq.toNat)

/-- A file is created and removed. -/
def createRemove (workdir : Fh3) (tid : ℕ) (seq : UInt64) (_ : Turn) :
    ClientM NFSClient (UInt64 × UInt64) := do
  let _fh ← NFSClient.create workdir (metaName tid seq) .GUARDED {}
  call (.remove workdir (metaName tid seq))
  return (0, seq + 1)

/-- The loop that carries nothing. -/
theorem loop_eq (io : Turn → ClientM NFSClient UInt64) :
    ∀ turns, loop io turns = loopFrom (fun (_ : Unit) t => do return (← io t, ())) () turns
  | [] => rfl
  | t :: turns => by
    rw [loop, loopFrom, loop_eq io turns]
    funext w
    show (((io t) w.client).bind _).bind _ = ((((io t) w.client).bind _).bind _).bind _
    simp only [Prog.bind_assoc]
    refine congrArg _ (funext fun rc => ?_)
    obtain ⟨r, c⟩ := rc
    cases r <;> rfl

/-- What a thread has counted in its turns. -/
def Tallied (w : Worker) (turns : List Turn) (w' : Worker) : Prop :=
  w'.res.samples_ = w.res.samples_ ++ turns.map Turn.elapsed ∧ w'.ops = w.ops + UInt64.ofNat turns.length

/-- **The rule of the loop.** `I` speaks of the number of turns that are over, of what is carried, of the
bytes that have been counted, of the client and of the environment. Where no turn throws, each of them is
counted once. -/
theorem twpM_loopFrom {S β : Type} {step : Step RpcRequest Received S} {ok : S → RpcRequest → Prop}
    {io : β → Turn → ClientM NFSClient (UInt64 × β)} {I : ℕ → β → UInt64 → NFSClient → S → Prop}
    (hio : ∀ k x t bytes nfs s, I k x bytes nfs s →
      twpM step ok (fun r nfs' s' => ∃ n, r = .ok n ∧ I (k + 1) n.2 (bytes + n.1) nfs' s') (io x t) nfs s) :
    ∀ (turns : List Turn) (k : ℕ) (x : β) (w : Worker) (s : S), I k x w.bytes w.client s →
      twpM step ok (fun r w' s' => r = .ok () ∧ Tallied w turns w' ∧
        ∃ x', I (k + turns.length) x' w'.bytes w'.client s') (loopFrom io x turns) w s
  | [], _, x, w, s, hI => ⟨rfl, ⟨(List.append_nil _).symm, (UInt64.add_zero _).symm⟩, x, hI⟩
  | t :: turns, k, x, w, s, hI => by
    refine twpM_bind.mpr (twpM_onMember.mpr (twpM_mono ?_ (hio k x t w.bytes w.client s hI)))
    rintro _ nfs' s' ⟨n, rfl, hI'⟩
    refine twpM_bind.mpr ?_
    show twpM step ok (fun r w' s' => r = .ok () ∧ Tallied w (t :: turns) w' ∧
        ∃ x', I (k + (turns.length + 1)) x' w'.bytes w'.client s')
      (loopFrom io n.2 turns) ⟨nfs', w.res.push t.elapsed, w.ops + 1, w.bytes + n.1⟩ s'
    refine twpM_mono ?_ (twpM_loopFrom hio turns (k + 1) n.2 _ s' hI')
    rintro r w' s'' ⟨hr, ⟨hsamples, hops⟩, hI''⟩
    refine ⟨hr, ⟨?_, ?_⟩, ?_⟩
    · rw [hsamples]
      exact List.append_assoc w.res.samples_ [t.elapsed] _
    · show w'.ops = w.ops + UInt64.ofNat (turns.length + 1)
      rw [hops, UInt64.ofNat_add, UInt64.add_assoc, UInt64.add_comm 1]
      rfl
    · rw [← Nat.add_assoc, Nat.add_right_comm]
      exact hI''

/-! ### Workloads -/

/-- The workloads, by the names that they have in the registry of `main`. -/
inductive Workload
  | seqread | seqwrite | randread | randwrite | meta_ | mixed
  deriving DecidableEq, Repr

namespace Workload

/-- What is done before the threads begin. -/
def setup : Workload → Option FillWorkload
  | seqread => some .seqread
  | randread => some .randread
  | mixed => some .mixed
  | seqwrite | randwrite | meta_ => none

/-- What each thread does. -/
def run (workdir : Fh3) (cfg : BenchConfig) (tid : ℕ) (turns : List Turn) :
    Workload → ClientM Worker Unit
  | seqread => Bench.seqread workdir cfg turns
  | seqwrite => Bench.seqwrite workdir cfg tid turns
  | randread => RandomWorkload.randread.run workdir cfg tid turns
  | randwrite => RandomWorkload.randwrite.run workdir cfg tid turns
  | meta_ => loopFrom (createRemove workdir tid) 0 turns
  | mixed => RandomWorkload.mixed.run workdir cfg tid turns

end Workload

/-! ### Threads -/

/-- The credential of all clients of the benchmark. -/
def rootAuth : AuthSys := { uid := 0, gid := 0 }

/-- A thread behind the construction of its client. It hands back the exception that it has printed, if
there was one. -/
def worker (wl : Workload) (workdir : Fh3) (cfg : BenchConfig) (tid : ℕ) (turns : List Turn)
    (client : NFSClient) : Prog RpcRequest Received (Option Exn × Worker) :=
  let body : ClientM Worker Unit := do
    onClient (NFSClient.setAuthSys rootAuth)
    wl.run workdir cfg tid turns
  (body ⟨client, {}, 0, 0⟩).bind fun rw =>
    match rw.1 with
    | .ok () => .done (none, rw.2)
    | .error e => .done (some e, rw.2)

structure RunResult where
  total_ops : UInt64
  total_bytes : UInt64
  lat : Reservoir.Stats
  deriving DecidableEq, Repr

/-- What `run_workload` makes of the threads that have ended. -/
def runResult (threads : List Worker) : RunResult where
  total_ops := threads.foldl (fun total w => total + w.ops) 0
  total_bytes := threads.foldl (fun total w => total + w.bytes) 0
  lat := (Reservoir.mergeAll (threads.map Worker.res)).compute.1

end Bench

end NfsClient
