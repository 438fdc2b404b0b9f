import NfsClient.Bench.Reservoir
import NfsClient.Listing.Complete
import NfsClient.Nfs3.Facade

/-!
# Workloads

The workloads of the benchmark tool that draw their offsets at random (workload_randread.cpp,
workload_randwrite.cpp, workload_mixed.cpp), and the setup that fills the file `bench_data`, which
`seqread`, `randread` and `mixed` have in common but for the byte that they fill it with.

A worker runs until it is stopped, so that a run has any number of turns. What comes from outside of
the program is given with each turn: the draws of the two distributions, and the time that passed.
-/

namespace NfsClient

open Xdr Interaction

namespace Bench

/-- The fields of `BenchConfig` that a workload looks at. The one that is left out, `rw_ratio`, is only
compared with a draw (`Turn.reads`). -/
structure BenchConfig where
  bs : UInt32 := 65536
  size : UInt64 := 2 ^ 30
  stable : Stable3 := .UNSTABLE
  deriving DecidableEq, Repr

/-- What `main` checks of these fields. -/
structure BenchConfig.Accepted (cfg : BenchConfig) : Prop where
  bs_pos : 0 < cfg.bs
  size_pos : 0 < cfg.size

/-- The arguments of a workload that it may change. -/
structure Worker where
  client : NFSClient
  res : Reservoir := {}
  ops : UInt64 := 0
  bytes : UInt64 := 0

def onClient {α : Type} (m : ClientM NFSClient α) : ClientM Worker α :=
  ClientM.onMember Worker.client (fun client w => { w with client }) m

/-- A method of `NFSClient` that makes one call. -/
def call (c : Nfs3.Call) : ClientM NFSClient c.Result := NFSClient.onConn c.perform

def BENCH_FILE : Bytes := ascii "bench_data"

/-! ### Filling the file -/

/-- The loop of the setup; `written` is its progress. -/
def fillLoop (cfg : BenchConfig) (buf : Bytes) (fh : Fh3) : ℕ → UInt64 → ClientM NFSClient Unit
  | 0, _ => ClientM.cut
  | fuel + 1, written =>
    if written < cfg.size then do
      let chunk := (min cfg.bs.toUInt64 (cfg.size - written)).toUInt32
      -- the count in the result is not looked at
      let _result ← call (.write fh written .FILE_SYNC (buf.take chunk.toNat))
      fillLoop cfg buf fh fuel (written + chunk.toUInt64)
    else return ()

/-- The setup that fills `bench_data` with `byte`. -/
def fill (byte : UInt8) (fuel : ℕ) (workdir : Fh3) (cfg : BenchConfig) : ClientM NFSClient Unit := do
  let buf := List.replicate cfg.bs.toNat byte
  let fh ← NFSClient.create workdir BENCH_FILE .UNCHECKED {}
  fillLoop cfg buf fh fuel 0

/-- The workloads with this setup. -/
inductive FillWorkload
  | seqread | randread | mixed
  deriving DecidableEq, Repr

def FillWorkload.setup : FillWorkload → ℕ → Fh3 → BenchConfig → ClientM NFSClient Unit
  | seqread => fill 0xAB
  | randread => fill 0xCD
  | mixed => fill 0xEF

/-! ### Random offsets -/

/-- What a turn of a worker gets from outside: the block that is drawn, the verdict of the coin, and
the nanoseconds that the operation took. -/
structure Turn where
  block : UInt64
  reads : Bool
  elapsed : UInt64
  deriving DecidableEq, Repr

/-- `max_block`, the last block that may be drawn. -/
def BenchConfig.maxBlock (cfg : BenchConfig) : UInt64 :=
  let blocks := cfg.size / cfg.bs.toUInt64
  if blocks > 0 then blocks - 1 else 0

def BenchConfig.offset (cfg : BenchConfig) (t : Turn) : UInt64 := t.block * cfg.bs.toUInt64

/-- A read of one block, and how many bytes it came to. -/
def readBlock (cfg : BenchConfig) (fh : Fh3) (t : Turn) : ClientM NFSClient UInt64 := do
  let data ← call (.read fh (cfg.offset t) cfg.bs)
  return UInt64.ofNat data.length

/-- A write of one block. -/
def writeBlock (cfg : BenchConfig) (fh : Fh3) (buf : Bytes) (t : Turn) :
    ClientM NFSClient UInt64 := do
  let result ← call (.write fh (cfg.offset t) cfg.stable buf)
  return result.count.toUInt64

/-- The loop of a worker. -/
def loop (io : Turn → ClientM NFSClient UInt64) : List Turn → ClientM Worker Unit
  | [] => return ()
  | t :: turns => do
    let n ← onClient (io t)
    ClientM.assign fun w =>
      { w with res := w.res.push t.elapsed, ops := w.ops + 1, bytes := w.bytes + n }
    loop io turns

def randread (workdir : Fh3) (cfg : BenchConfig) (turns : List Turn) : ClientM Worker Unit := do
  let fh ← onClient (call (.lookup workdir BENCH_FILE))
  loop (readBlock cfg fh) turns

/-- The file is extended to its size before the first write. -/
def randwrite (workdir : Fh3) (cfg : BenchConfig) (tid : ℕ) (turns : List Turn) :
    ClientM Worker Unit := do
  let fname := ascii ("bench_rw_" ++ toString tid)
  let fh ← onClient (NFSClient.create workdir fname .UNCHECKED {})
  onClient (call (.setattr fh { set_size := true, size := cfg.size } {}))
  let buf := List.replicate cfg.bs.toNat 0xDE
  loop (writeBlock cfg fh buf) turns
  onClient (call (.remove workdir fname))

def mixed (workdir : Fh3) (cfg : BenchConfig) (turns : List Turn) : ClientM Worker Unit := do
  let fh ← onClient (call (.lookup workdir BENCH_FILE))
  let wbuf := List.replicate cfg.bs.toNat 0xEF
  loop (fun t => if t.reads then readBlock cfg fh t else writeBlock cfg fh wbuf t) turns

/-- The workloads at random offsets. -/
inductive RandomWorkload
  | randread | randwrite | mixed
  deriving DecidableEq, Repr

/-- The run of a workload in the thread `tid`. -/
def RandomWorkload.run (workdir : Fh3) (cfg : BenchConfig) (tid : ℕ) (turns : List Turn) :
    RandomWorkload → ClientM Worker Unit
  | .randread => Bench.randread workdir cfg turns
  | .randwrite => Bench.randwrite workdir cfg tid turns
  | .mixed => Bench.mixed workdir cfg turns

/-! ### Calls of the client -/

section

variable {S : Type} {step : Step RpcRequest Received S} {ok : S → RpcRequest → Prop} {c : Nfs3.Call}
  {post : Except Exn c.Result → NFSClient → S → Prop} {nfs : NFSClient} {s : S}

theorem call_eq (c : Nfs3.Call) (nfs : NFSClient) :
    call c nfs =
      .call (c.request nfs.nfs_conn_) fun r => .done (c.result r, ⟨nfs.nfs_conn_.bump⟩) :=
  NFSClient.onConn_procedure_eq c.number c.encodeArgs c.decodeReply nfs

theorem wpM_client_call : wpM step ok post (call c) nfs s ↔ ok s (c.request nfs.nfs_conn_) ∧
    ∀ r s', step s (c.request nfs.nfs_conn_) r s' → post (c.result r) ⟨nfs.nfs_conn_.bump⟩ s' := by
  rw [wpM, call_eq]
  exact Iff.rfl

theorem twpM_client_call : twpM step ok post (call c) nfs s ↔ ok s (c.request nfs.nfs_conn_) ∧
    ∀ r s', step s (c.request nfs.nfs_conn_) r s' → post (c.result r) ⟨nfs.nfs_conn_.bump⟩ s' := by
  rw [twpM, call_eq]
  exact Iff.rfl

end

end Bench

end NfsClient
