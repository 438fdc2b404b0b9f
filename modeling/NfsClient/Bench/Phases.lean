import NfsClient.Bench.Fill
import NfsClient.Bench.Independence

/-!
# The phases of a benchmark

`main` (main.cpp) runs a workload in three phases: the setup, on the client of the main thread; the
threads, each on a client of its own; and the teardown, on the client of the main thread again. The setup
makes what the threads need, the threads leave it as it is, and the teardown removes it. So the working
directory, which was made for the run, is empty when the run is over (`benchmark_leaves_no_trace`).
-/

namespace NfsClient

open Xdr Interaction Nfs3

namespace Bench

/-- The first phase. -/
def Workload.setupPhase (wl : Workload) (fuel : ℕ) (workdir : Fh3) (cfg : BenchConfig) :
    ClientM NFSClient Unit :=
  match wl.setup with
  | some setup => setup.setup fuel workdir cfg
  | none => return ()

/-- The last phase removes the file that the setup has made. -/
def Workload.teardown (wl : Workload) (workdir : Fh3) : ClientM NFSClient Unit :=
  match wl.setup with
  | some _ => call (.remove workdir BENCH_FILE)
  | none => return ()

/-! ### The main thread -/

/-- The only name that the main thread creates and removes. -/
def mainNames (_ : Unit) (n : Bytes) : Prop := n = BENCH_FILE

theorem mainNames_untouched (i : Unit) (n : Bytes) : Untouched mainNames i n :=
  fun j hj => absurd (Subsingleton.elim j i) hj

section

variable {τ σ : Type} {srv : Service τ} {fs : FileServer σ} {abs : τ → σ} {files : σ → Files}
  {workdir fh : Fh3} {v : Files} {t : τ} {nfs : NFSClient} {cfg : BenchConfig}
  {h : OnTheWire srv fs abs} {hexp : Exports fs workdir files}

/-- Nobody else is there when the main thread calls. -/
abbrev mainThread (h : OnTheWire srv fs abs) (hexp : Exports fs workdir files) :
    Discipline Unit (AnsweredAtOnce srv) :=
  ownNames h hexp fun i n _ => mainNames_untouched i n

theorem Sees.eq (hsees : Sees mainNames () (files (abs t)) v nfs) : files (abs t) = v :=
  funext fun n => hsees.agrees n (mainNames_untouched () n)

/-- The loop writes to the file until it is filled, and the directory stays as it is. -/
theorem holdsM_fillLoop {n buf : Bytes} (hbs : 0 < cfg.bs) (hfits : cfg.bs.toNat + 256 ≤ 2 ^ 31)
    (hbuf : buf.length = cfg.bs.toNat) (hfh : v n = some fh) (hshort : fh.data.length ≤ 64) :
    ∀ {fuel : ℕ} {written : UInt64} {nfs : NFSClient} {t : τ}, written.toNat ≤ cfg.size.toNat →
      cfg.size.toNat - written.toNat < fuel → Sees mainNames () (files (abs t)) v nfs →
      HoldsM (mainThread h hexp) () (fun r nfs t => r = .ok () ∧ Sees mainNames () (files (abs t)) v nfs)
        (fillLoop cfg buf fh fuel written) nfs t
  | 0, _, _, _, _, hfuel, _ => absurd hfuel (Nat.not_lt_zero _)
  | fuel + 1, written, nfs, t, hle, hfuel, hsees => by
    unfold fillLoop
    by_cases hlt : written < cfg.size
    · rw [if_pos hlt]
      have hchunk := toNat_chunk cfg hlt
      rw [UInt64.lt_iff_toNat_lt] at hlt
      have hbs : 0 < cfg.bs.toNat := UInt32.lt_iff_toNat_lt.mp hbs
      generalize (min cfg.bs.toUInt64 (cfg.size - written)).toUInt32 = chunk at hchunk ⊢
      have hdata : (buf.take chunk.toNat).length + 256 ≤ 2 ^ 31 := by
        rw [List.length_take]
        omega
      have hnext : (written + chunk.toUInt64).toNat = written.toNat + chunk.toNat := by
        have hsize := cfg.size.toNat_lt
        rw [UInt64.toNat_add, UInt32.toNat_toUInt64, Nat.mod_eq_of_lt (by omega)]
      refine twpM_bind.mpr (holdsM_write hsees (hasRoom_write hshort hdata _ _)
        (mainNames_untouched () n) hfh fun _ nfs' t' hsees' => ?_)
      exact holdsM_fillLoop hbs hfits hbuf hfh hshort (by omega) (by omega) hsees'
    · rw [if_neg hlt]
      exact ⟨rfl, hsees⟩

theorem holdsM_fill (hcfg : cfg.Accepted) (hfits : cfg.bs.toNat + 256 ≤ 2 ^ 31)
    (hworkdir : workdir.data.length ≤ 64) (byte : UInt8) {fuel : ℕ} (hfuel : cfg.size.toNat < fuel)
    (hsees : Sees mainNames () (files (abs t)) v nfs) :
    HoldsM (mainThread h hexp) () (fun r nfs t => r = .ok () ∧ ∃ fh, fh.data.length ≤ 64 ∧
      Sees mainNames () (files (abs t)) (Function.update v BENCH_FILE (some fh)) nfs)
      (fill byte fuel workdir cfg) nfs t := by
  have hroom := hasRoom_create (n := BENCH_FILE) .UNCHECKED CreateMode3.noConfusion hworkdir (by decide)
  refine twpM_bind.mpr (holdsM_create .UNCHECKED CreateMode3.noConfusion hsees hroom rfl
    (fun hmode => CreateMode3.noConfusion hmode) fun fh nfs t hshort hsees => ?_)
  refine twpM_mono ?_ (holdsM_fillLoop hcfg.bs_pos hfits List.length_replicate
    (Function.update_self BENCH_FILE (some fh) v) hshort (Nat.zero_le _) hfuel hsees)
  rintro r nfs t ⟨hr, hsees⟩
  exact ⟨hr, fh, hshort, hsees⟩

/-- What the threads find after the first phase: the file of the setup, or nothing. -/
def Workload.Prepared (wl : Workload) (v : Files) : Prop :=
  match wl.setup with
  | some _ => ∃ fh, fh.data.length ≤ 64 ∧ v = Function.update (fun _ => none) BENCH_FILE (some fh)
  | none => v = fun _ => none

theorem Workload.Prepared.ready {wl : Workload} {N : ℕ} (hv : wl.Prepared v) : wl.Ready N v := by
  cases wl with
  | seqread | randread | mixed =>
    obtain ⟨fh, hshort, rfl⟩ := hv
    exact ⟨fun _ _ hn => hn.elim, fun _ => ⟨fh, Function.update_self .., hshort⟩⟩
  | seqwrite | randwrite | meta_ =>
    obtain rfl : v = fun _ => none := hv
    exact ⟨fun _ _ _ => rfl, fun hsetup => absurd hsetup (by decide)⟩

variable (h hexp) in
theorem holdsM_setupPhase (wl : Workload) (hcfg : cfg.Accepted) (hfits : cfg.bs.toNat + 256 ≤ 2 ^ 31)
    (hworkdir : workdir.data.length ≤ 64) {fuel : ℕ} (hfuel : cfg.size.toNat < fuel)
    (hsees : Sees mainNames () (files (abs t)) (fun _ => none) nfs) :
    HoldsM (mainThread h hexp) () (fun r nfs t => r = .ok () ∧ wl.Prepared (files (abs t)) ∧
      Sees mainNames () (files (abs t)) (files (abs t)) nfs) (wl.setupPhase fuel workdir cfg) nfs t := by
  have hfill : ∀ byte, HoldsM (mainThread h hexp) () (fun r nfs t => r = .ok () ∧
      (∃ fh, fh.data.length ≤ 64 ∧
        files (abs t) = Function.update (fun _ => none) BENCH_FILE (some fh)) ∧
      Sees mainNames () (files (abs t)) (files (abs t)) nfs) (fill byte fuel workdir cfg) nfs t := by
    intro byte
    refine twpM_mono ?_ (holdsM_fill hcfg hfits hworkdir byte hfuel hsees)
    rintro r nfs t ⟨hr, fh, hshort, hsees⟩
    exact ⟨hr, ⟨fh, hshort, hsees.eq⟩, hsees.auth, fun _ _ => rfl⟩
  cases wl with
  | seqread => exact hfill 0xAB
  | randread => exact hfill 0xCD
  | mixed => exact hfill 0xEF
  | seqwrite | randwrite | meta_ => exact ⟨rfl, hsees.eq, hsees.auth, fun _ _ => rfl⟩

variable (h hexp) in
theorem holdsM_teardown {wl : Workload} (hworkdir : workdir.data.length ≤ 64) (hv : wl.Prepared v)
    (hsees : Sees mainNames () (files (abs t)) v nfs) :
    HoldsM (mainThread h hexp) () (fun r _ t => r = .ok () ∧ files (abs t) = fun _ => none)
      (wl.teardown workdir) nfs t := by
  have hremove : (∃ fh, fh.data.length ≤ 64 ∧ v = Function.update (fun _ => none) BENCH_FILE (some fh)) →
      HoldsM (mainThread h hexp) () (fun r _ t => r = .ok () ∧ files (abs t) = fun _ => none)
        (call (.remove workdir BENCH_FILE)) nfs t := by
    rintro ⟨fh, -, rfl⟩
    have hthere : Function.update (fun _ => none) BENCH_FILE (some fh) BENCH_FILE ≠ none := by
      rw [Function.update_self]
      exact Option.some_ne_none fh
    refine holdsM_remove hsees (hasRoom_remove hworkdir (by decide)) rfl hthere fun nfs t hsees => ?_
    rw [update_none rfl] at hsees
    exact ⟨rfl, hsees.eq⟩
  cases wl with
  | seqread | randread | mixed => exact hremove hv
  | seqwrite | randwrite | meta_ =>
    obtain rfl : v = fun _ => none := hv
    exact ⟨rfl, hsees.eq⟩

/-- Alone, the main thread sends only what fits a record. -/
theorem HoldsM.alone {α : Type} {post : Except Exn α → NFSClient → τ → Prop} {m : ClientM NFSClient α}
    (hm : HoldsM (mainThread h hexp) () post m nfs t) :
    twpM (AnsweredAtOnce srv) (fun _ q => q.HasRoom) post m nfs t := by
  refine Discipline.Holds.alone (fun _ q hq => ?_) hm
  obtain ⟨c, rpc, rfl, hauth, hroom, -⟩ := hq
  exact Call.HasRoom.message (hauth ▸ hroom)

end

/-! ### All phases -/

/-- **A benchmark leaves no trace.** Any workload, in a directory that was made for it: the setup comes to
an end and the threads find what they need; and however these run, once all have ended the teardown leaves
the directory empty. -/
theorem benchmark_leaves_no_trace {τ σ : Type} {srv : Service τ} {fs : FileServer σ} {abs : τ → σ}
    (h : OnTheWire srv fs abs) {fuel : ℕ} (hfuel : srv.InFragments fuel) {workdir : Fh3}
    {files : σ → Files} (hexp : Exports fs workdir files) (hworkdir : workdir.data.length ≤ 64)
    (wl : Workload) (cfg : BenchConfig) (hcfg : cfg.Accepted) (hfits : cfg.bs.toNat + 256 ≤ 2 ^ 31)
    {N : ℕ} (hN : N < 2 ^ 31) (turns : Fin N → List Turn) (port : Fin N → UInt16) (t : τ)
    (hempty : files (abs t) = fun _ => none) (main : NFSClient)
    (hauth : main.nfs_conn_.auth_sys_ = some rootAuth) (steps : ℕ) (hsteps : cfg.size.toNat < steps) :
    twpM (AnsweredAtOnce srv) (fun _ q => q.HasRoom)
      (fun r main t₁ => r = .ok () ∧ MayRun wl workdir cfg N (files (abs t₁)) ∧
        ∀ w, Relation.ReflTransGen (Clients.Step srv) (startThreads fuel wl workdir cfg turns port t₁) w →
          (∀ i, ∃ x, w.progs i = .done x) →
          twpM (AnsweredAtOnce srv) (fun _ q => q.HasRoom)
            (fun r _ t₂ => r = .ok () ∧ files (abs t₂) = fun _ => none)
            (wl.teardown workdir) main w.server)
      (wl.setupPhase steps workdir cfg) main t := by
  have hsees : Sees mainNames () (files (abs t)) (fun _ => none) main :=
    ⟨hauth, fun n _ => congrFun hempty n⟩
  refine twpM_mono ?_ (holdsM_setupPhase h hexp wl hcfg hfits hworkdir hsteps hsees).alone
  rintro r main t₁ ⟨hr, hprepared, hsees⟩
  have hrun : MayRun wl workdir cfg N (files (abs t₁)) := ⟨hworkdir, hfits, hN, hprepared.ready⟩
  refine ⟨hr, hrun, fun w hreach hdone => ?_⟩
  have hrestored := (hrun.reached h hfuel hexp hreach).restored hdone
  rw [← hrestored] at hsees hprepared
  exact (holdsM_teardown h hexp hworkdir hprepared hsees).alone

/-- A file of three bytes, written in blocks of two. -/
def threeBytes : BenchConfig := { bs := 2, size := 3 }

/-- Three threads on the server with one directory, which is empty. -/
theorem threeBytes_leaves_no_trace :
    twpM (AnsweredAtOnce (wireServer oneDirectory)) (fun _ q => q.HasRoom)
      (fun r main t₁ => r = .ok () ∧ MayRun .mixed ⟨[1]⟩ threeBytes 3 (directoryNames t₁) ∧
        ∀ w, Relation.ReflTransGen (Clients.Step (wireServer oneDirectory))
            (startThreads 1 .mixed ⟨[1]⟩ threeBytes (fun _ => [shortTurn]) (fun _ => 2049) t₁) w →
          (∀ i : Fin 3, ∃ x, w.progs i = .done x) →
          twpM (AnsweredAtOnce (wireServer oneDirectory)) (fun _ q => q.HasRoom)
            (fun r _ t₂ => r = .ok () ∧ directoryNames t₂ = fun _ => none)
            (Workload.teardown .mixed ⟨[1]⟩) main w.server)
      (Workload.setupPhase .mixed 4 ⟨[1]⟩ threeBytes) ⟨(TcpRpcClient.connect 2049).setAuthSys rootAuth⟩
      fun _ => false :=
  benchmark_leaves_no_trace (wireServer_onTheWire oneDirectory) oneDirectory_inFragments
    (oneDirectory_exports ⟨[1]⟩) (by decide) .mixed threeBytes ⟨by decide, by decide⟩ (by decide)
    (by decide) (fun _ => [shortTurn]) (fun _ => 2049) (fun _ => false) rfl _ rfl 4 (by decide)

end Bench

end NfsClient
