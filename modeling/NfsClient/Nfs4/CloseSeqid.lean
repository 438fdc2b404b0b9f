import NfsClient.Nfs4.OpenOwner

/-!
# The ids of opened and closed files

`do_open` stores the id of its last operation in the `Nfs4File`, and a CLOSE is sent with the id that
is stored there. So it repeats an id: `owner_seqids_consecutive` says that in a run of calls that all
succeed the ids are consecutive as long as no file is closed, and, as long as they are less than
`2 ^ 32`, no longer.

The invariant of such a run is `NoneClosed`: the ids sent are the ones after the first value of
`open_seqid_`, and every file has one of them. The first CLOSE then sends one of them again.
-/

namespace NfsClient

open Xdr Reader Interaction

/-! ### Sequences of ids -/

/-- Each id is the one after its predecessor. -/
def Consecutive (seqids : List UInt32) : Prop := seqids.IsChain fun a b => b = a + 1

/-- The `n` ids after `v`. -/
def seqidsAfter (v : UInt32) (n : ℕ) : List UInt32 :=
  (List.range n).map fun i => v + UInt32.ofNat (i + 1)

theorem seqidsAfter_succ (v : UInt32) (n : ℕ) :
    seqidsAfter v (n + 1) = seqidsAfter v n ++ [v + UInt32.ofNat (n + 1)] := by
  unfold seqidsAfter
  rw [List.range_succ, List.map_append, List.map_singleton]

theorem consecutive_seqidsAfter (v : UInt32) (n : ℕ) : Consecutive (seqidsAfter v n) := by
  unfold Consecutive seqidsAfter
  rw [List.isChain_map, List.isChain_range]
  intro i _
  rw [Nat.succ_eq_add_one, UInt32.ofNat_add (i + 1), ← add_assoc]
  rfl

/-- What comes after the ids after `v` is the next one. -/
theorem Consecutive.eq_of_concat {v seqid : UInt32} {n : ℕ}
    (h : Consecutive (seqidsAfter v (n + 1) ++ [seqid])) : seqid = v + UInt32.ofNat (n + 2) := by
  rw [seqidsAfter_succ, List.append_assoc] at h
  have hpair : Consecutive [v + UInt32.ofNat (n + 1), seqid] := h.right_of_append
  rw [List.isChain_pair.mp hpair, add_assoc, ← UInt32.ofNat_one, ← UInt32.ofNat_add]

/-- None of the ids is one that is still to come, as long as there are less than `2 ^ 32`. -/
theorem next_not_mem_seqidsAfter {v : UInt32} {n : ℕ} (hn : n + 1 < 2 ^ 32) :
    v + UInt32.ofNat (n + 1) ∉ seqidsAfter v n := by
  intro hmem
  obtain ⟨i, hi, heq⟩ := List.mem_map.mp hmem
  have hlt : i < n := List.mem_range.mp hi
  have hnat : (i + 1) % 2 ^ 32 = (n + 1) % 2 ^ 32 := by
    rw [← UInt32.toNat_ofNat', ← UInt32.toNat_ofNat', add_left_cancel heq]
  rw [Nat.mod_eq_of_lt (by omega), Nat.mod_eq_of_lt hn] at hnat
  omega

/-! ### What a run sends -/

/-- The ids of the operations of the open-owner in a run. -/
def sentSeqids (tr : List (RpcRequest × Received)) : List UInt32 :=
  tr.flatMap fun x => (ownerOps x.1.args).map Prod.snd

theorem sentSeqids_concat {log : List (RpcRequest × Received)} {q : RpcRequest} {r : Received}
    {op : Op} {seqid : UInt32} (h : ownerOps q.args = [(op, seqid)]) :
    sentSeqids (log ++ [(q, r)]) = sentSeqids log ++ [seqid] := by
  unfold sentSeqids
  rw [List.flatMap_append, List.flatMap_singleton, h]
  rfl

/-- The environment that answers anything but GRACE, and keeps every exchange. -/
def noGrace : Step RpcRequest Received (List (RpcRequest × Received)) :=
  fun log q r log' => ¬ IsGrace r ∧ log' = log ++ [(q, r)]

theorem log_of_noGrace {α : Type} {p p' : Prog RpcRequest Received α}
    {log tr log' : List (RpcRequest × Received)} (htr : Trace noGrace p log tr p' log') :
    log' = log ++ tr := by
  induction htr with
  | refl => exact (List.append_nil _).symm
  | call hstep _ ih =>
    rw [ih, hstep.2, List.append_assoc]
    rfl

theorem sentSeqids_append (log tr : List (RpcRequest × Received)) :
    sentSeqids (log ++ tr) = sentSeqids log ++ sentSeqids tr := List.flatMap_append

namespace Nfs4Client

/-- The client has sent the `n` ids after `v`, and has taken no other. -/
structure SentAfter (v : UInt32) (n : ℕ) (c : Nfs4Client) (log : List (RpcRequest × Received)) :
    Prop where
  sent : sentSeqids log = seqidsAfter v n
  taken : c.open_seqid_ = v + UInt32.ofNat n

/-- The client has sent the `n` ids after `v`, and has taken the next one. -/
structure TakenAfter (v : UInt32) (n : ℕ) (c : Nfs4Client) (log : List (RpcRequest × Received)) :
    Prop where
  sent : sentSeqids log = seqidsAfter v n
  taken : c.open_seqid_ = v + UInt32.ofNat (n + 1)

section Steps

variable {v : UInt32} {n : ℕ} {c c' : Nfs4Client} {log log' tr : List (RpcRequest × Received)}

theorem SentAfter.opened (h : SentAfter v n c log) : TakenAfter v n c.opened log := by
  refine ⟨h.sent, ?_⟩
  change c.open_seqid_ + 1 = _
  rw [h.taken, UInt32.ofNat_add, add_assoc]
  rfl

theorem TakenAfter.sends (h : TakenAfter v n c log) {q : RpcRequest} {r : Received} {op : Op}
    (hq : ownerOps q.args = [(op, c.open_seqid_)]) :
    SentAfter v (n + 1) c.sent (log ++ [(q, r)]) := by
  refine ⟨?_, h.taken⟩
  rw [sentSeqids_concat hq, h.sent, h.taken, seqidsAfter_succ]

/-- **The ids of a call that opens a file** are the ones after the last, and the file keeps the last of
them. -/
theorem OpenCall.sentAfter {call : OpenCall} {fuel : ℕ} {f : Nfs4File} (h : SentAfter v n c log)
    (htr : Trace noGrace (call.perform fuel c) log tr (.done (.ok f, c')) log') :
    ∃ n, SentAfter v (n + 1) c' log' ∧ f.seqid = c'.open_seqid_ ∧ f.fh.data.length < 2 ^ 32 := by
  have hopen : ∀ (dir : FittingFh) (name : FittingName) share_access create,
      wpM noGrace (fun _ _ => True)
        (fun r c' log' => (∃ n, SentAfter v (n + 1) c' log') ∧
          ∀ f, r = .ok f → f.seqid = c'.open_seqid_ ∧ f.fh.data.length < 2 ^ 32)
        (doOpen fuel dir name share_access create) c log := by
    intro dir name share_access create
    refine wpM_doOpen_owner (J := fun c log => ∃ n, TakenAfter v n c log)
      (K := fun c log => ∃ n, SentAfter v (n + 1) c log) dir.2 name.2 ?_ ?_ ?_ fuel share_access create
      ⟨n, h.opened⟩
    -- the OPEN, without a GRACE, has the id that was taken
    · rintro c log q ⟨n, hJ⟩ hq
      refine ⟨trivial, ?_⟩
      rintro r log' ⟨hr, rfl⟩
      exact ⟨fun hgrace => absurd hgrace hr, fun _ => ⟨n, hJ.sends hq⟩⟩
    · rintro c log q ⟨n, hJ⟩ hq
      refine ⟨trivial, ?_⟩
      rintro r log' ⟨hr, rfl⟩
      exact ⟨n, hJ.sends hq⟩
    -- an OPEN_CONFIRM takes the next one
    · rintro c log ⟨n, hK⟩
      exact ⟨n + 1, hK.opened⟩
  have hend : (∃ n, SentAfter v (n + 1) c' log') ∧
      ∀ f', (.ok f : Except Exn Nfs4File) = .ok f' → f'.seqid = c'.open_seqid_ ∧ f'.fh.data.length < 2 ^ 32 := by
    cases call with
    | openRead dir name => exact wp_trace htr (hopen dir name _ _)
    | openWrite dir name create => exact wp_trace htr (hopen dir name _ create)
  obtain ⟨⟨n, hsent⟩, hfile⟩ := hend
  exact ⟨n, hsent, hfile f rfl⟩

/-- A CLOSE has the id that is kept in the file. -/
theorem sentSeqids_close {fuel : ℕ} {f : Nfs4File} (hf : f.fh.data.length < 2 ^ 32)
    (htr : Trace noGrace (perform fuel (.file (.close f)) c) log tr (.done (.ok (), c')) log') :
    sentSeqids log' = sentSeqids log ++ [f.seqid] := by
  have hclose : wpM noGrace (fun _ _ => True)
      (fun _ _ log' => sentSeqids log' = sentSeqids log ++ [f.seqid])
      (perform fuel (.file (.close f))) c log := by
    refine wpM_onRpc_send.mpr ⟨trivial, ?_⟩
    rintro r log' ⟨-, rfl⟩
    exact sentSeqids_concat (ownerOps_close c.rpc_ hf)
  exact wp_trace htr hclose

end Steps

/-! ### Runs of calls -/

/-- A run of calls that open and close files, all of which succeed: the files that are open, the
exchanges so far and the number of files closed. -/
inductive CallRun (c₀ : Nfs4Client) :
    List Nfs4File → List (RpcRequest × Received) → ℕ → Nfs4Client → Prop
  | start : CallRun c₀ [] [] 0 c₀
  | opened {files : List Nfs4File} {log tr log' : List (RpcRequest × Received)} {closes fuel : ℕ}
      {c c' : Nfs4Client} {call : OpenCall} {f : Nfs4File} (hrun : CallRun c₀ files log closes c)
      (htr : Trace noGrace (call.perform fuel c) log tr (.done (.ok f, c')) log') :
      CallRun c₀ (f :: files) log' closes c'
  | closed {files₁ files₂ : List Nfs4File} {log tr log' : List (RpcRequest × Received)}
      {closes fuel : ℕ} {c c' : Nfs4Client} {f : Nfs4File}
      (hrun : CallRun c₀ (files₁ ++ f :: files₂) log closes c)
      (htr : Trace noGrace (perform fuel (.file (.close f)) c) log tr (.done (.ok (), c')) log') :
      CallRun c₀ (files₁ ++ files₂) log' (closes + 1) c'

/-- A run in which no file has been closed. -/
structure NoneClosed (v : UInt32) (files : List Nfs4File) (log : List (RpcRequest × Received))
    (c : Nfs4Client) : Prop where
  sentAfter : ∃ n, SentAfter v n c log
  seqid_mem : ∀ f ∈ files, f.seqid ∈ sentSeqids log
  fits : ∀ f ∈ files, f.fh.data.length < 2 ^ 32

section Run

variable {v : UInt32} {files : List Nfs4File} {log log' tr : List (RpcRequest × Received)}
  {c c' : Nfs4Client} {f : Nfs4File}

theorem NoneClosed.opened {call : OpenCall} {fuel : ℕ} (h : NoneClosed v files log c)
    (htr : Trace noGrace (call.perform fuel c) log tr (.done (.ok f, c')) log') :
    NoneClosed v (f :: files) log' c' := by
  obtain ⟨n, hn⟩ := h.sentAfter
  obtain ⟨m, hsent, hseqid, hfh⟩ := OpenCall.sentAfter hn htr
  refine ⟨⟨m + 1, hsent⟩, List.forall_mem_cons.mpr ⟨?_, fun f' hf' => ?_⟩,
    List.forall_mem_cons.mpr ⟨hfh, h.fits⟩⟩
  · rw [hseqid, hsent.taken, hsent.sent, seqidsAfter_succ]
    exact List.mem_concat_self
  · rw [log_of_noGrace htr, sentSeqids_append]
    exact List.mem_append_left _ (h.seqid_mem f' hf')

/-- The first CLOSE breaks the sequence. -/
theorem NoneClosed.closed {fuel : ℕ} (h : NoneClosed v files log c) (hf : f ∈ files)
    (htr : Trace noGrace (perform fuel (.file (.close f)) c) log tr (.done (.ok (), c')) log')
    (hlen : (sentSeqids log').length < 2 ^ 32) : ¬ Consecutive (sentSeqids log') := by
  obtain ⟨n, hn⟩ := h.sentAfter
  have hmem := h.seqid_mem f hf
  rw [sentSeqids_close (h.fits f hf) htr, hn.sent] at hlen ⊢
  rw [hn.sent] at hmem
  intro hconsecutive
  -- the file has one of the ids sent, and the next one is none of them
  cases n with
  | zero => exact absurd hmem List.not_mem_nil
  | succ n =>
    rw [hconsecutive.eq_of_concat] at hmem
    refine next_not_mem_seqidsAfter ?_ hmem
    simpa [seqidsAfter] using hlen

theorem not_consecutive_append {seqids seqids' : List UInt32}
    (h : seqids.length < 2 ^ 32 → ¬ Consecutive seqids)
    (hlen : (seqids ++ seqids').length < 2 ^ 32) : ¬ Consecutive (seqids ++ seqids') := by
  rw [List.length_append] at hlen
  exact fun hchain => h (by omega) hchain.left_of_append

/-- **The run lemma.** Either no file has been closed, or the ids are not consecutive. -/
theorem CallRun.noneClosed_or {c₀ : Nfs4Client} {closes : ℕ} (hrun : CallRun c₀ files log closes c) :
    (closes = 0 ∧ NoneClosed c₀.open_seqid_ files log c) ∨ (closes ≠ 0 ∧
      ((sentSeqids log).length < 2 ^ 32 → ¬ Consecutive (sentSeqids log))) := by
  induction hrun with
  | start =>
    refine Or.inl ⟨rfl, ⟨⟨0, rfl, (add_zero _).symm⟩, ?_, ?_⟩⟩ <;>
      exact fun f hf => absurd hf List.not_mem_nil
  | opened _ htr ih =>
    rcases ih with ⟨hcloses, h⟩ | ⟨hcloses, h⟩
    · exact Or.inl ⟨hcloses, h.opened htr⟩
    · rw [log_of_noGrace htr, sentSeqids_append]
      exact Or.inr ⟨hcloses, not_consecutive_append h⟩
  | closed _ htr ih =>
    -- the first CLOSE breaks the sequence, and what follows it cannot mend it
    refine Or.inr ⟨Nat.succ_ne_zero _, ?_⟩
    rcases ih with ⟨-, h⟩ | ⟨-, h⟩
    · exact h.closed (List.mem_append_right _ List.mem_cons_self) htr
    · rw [log_of_noGrace htr, sentSeqids_append]
      exact not_consecutive_append h

/-- **The ids of the open-owner.** In every run of calls that succeed, with any files open and closed
and any OPENs confirmed, the ids of the OPENs, OPEN_CONFIRMs and CLOSEs are consecutive if no file has
been closed, and, as long as they are less than `2 ^ 32`, only then. -/
theorem owner_seqids_consecutive {c₀ : Nfs4Client} {closes : ℕ}
    (hrun : CallRun c₀ files log closes c) :
    (closes = 0 → Consecutive (sentSeqids log)) ∧
      ((sentSeqids log).length < 2 ^ 32 → Consecutive (sentSeqids log) → closes = 0) := by
  rcases hrun.noneClosed_or with ⟨hcloses, h⟩ | ⟨hcloses, h⟩
  · obtain ⟨n, hn⟩ := h.sentAfter
    refine ⟨fun _ => ?_, fun _ _ => hcloses⟩
    rw [hn.sent]
    exact consecutive_seqidsAfter _ n
  · exact ⟨fun hzero => absurd hzero hcloses, fun hlen hchain => absurd hchain (h hlen)⟩

end Run

/-! ### A file that is opened and closed -/

/-- The reply to an OPEN in the root directory that asks for no OPEN_CONFIRM, with the handle `[9]`. -/
def openRecord : Received :=
  .ok (acceptedHeader 1 0 [] ++ (word 0 ++ (word 0 ++ (word 3 ++ (word Op.PUTROOTFH.code ++ (word 0 ++
    (word Op.OPEN.code ++ (word 0 ++ (Stateid4.wire ⟨1, Octets.zero 12⟩ ++ (word 1 ++ (hyper 4 ++
      (hyper 5 ++ (word 0 ++ (word 0 ++ (word 0 ++ (word Op.GETFH.code ++
        (word 0 ++ varOpaque [9])))))))))))))))))

def closeRecord : Received :=
  .ok (acceptedHeader 2 0 [] ++ (word 0 ++ (word 0 ++ (word 2 ++ (word Op.PUTFH.code ++ (word 0 ++
    (word Op.CLOSE.code ++ (word 0 ++ Stateid4.wire ⟨2, Octets.zero 12⟩))))))))

/-- What `do_open` makes of it. -/
def openedFile : Nfs4File := ⟨⟨[9]⟩, ⟨1, Octets.zero 12⟩, 1⟩

/-- Opening the file `a` in the root directory. -/
def openedLog : List (RpcRequest × Received) :=
  [(fresh.opened.request (openFile ⟨[]⟩ [97] OPEN4_SHARE_ACCESS_READ false 7 1), openRecord)]

def closedLog : List (RpcRequest × Received) :=
  openedLog ++ [(fresh.opened.sent.request (close openedFile), closeRecord)]

theorem not_isGrace_of_zero {body : Bytes} {xid : UInt32} :
    ¬ IsGrace (.ok (acceptedHeader xid 0 [] ++ (word 0 ++ body))) := by
  have hzero : AnsweredWith (.ok (acceptedHeader xid 0 [] ++ (word 0 ++ body))) 0 :=
    ⟨body, parseReply_accepted xid 0 length_nil_lt (word 0 ++ body)⟩
  intro h
  exact absurd (h.status_eq hzero) (by decide)

set_option maxRecDepth 20000 in
theorem opened_run : CallRun fresh [openedFile] openedLog 0 fresh.opened.sent := by
  have htr : Trace noGrace ((OpenCall.openRead ⟨⟨[]⟩, by decide⟩ ⟨[97], by decide⟩).perform 1 fresh) []
      openedLog (.done (.ok openedFile, fresh.opened.sent)) openedLog :=
    .call ⟨not_isGrace_of_zero, rfl⟩ (.refl _ _)
  exact .opened .start htr

set_option maxRecDepth 20000 in
theorem closed_run : CallRun fresh [] closedLog 1 fresh.opened.sent.sent := by
  have htr : Trace noGrace (perform 0 (.file (.close openedFile)) fresh.opened.sent) openedLog
      [(fresh.opened.sent.request (close openedFile), closeRecord)]
      (.done (.ok (), fresh.opened.sent.sent)) closedLog :=
    .call ⟨not_isGrace_of_zero, rfl⟩ (.refl _ _)
  have hopened : CallRun fresh ([] ++ openedFile :: []) openedLog 0 fresh.opened.sent := opened_run
  exact .closed hopened htr

/-- The ids of the one OPEN are consecutive. -/
theorem opened_consecutive : Consecutive (sentSeqids openedLog) :=
  (owner_seqids_consecutive opened_run).1 rfl

/-- The file is opened and closed, both with the id 1. -/
theorem close_repeats_seqid : ∃ log c, CallRun fresh [] log 1 c ∧ sentSeqids log = [1, 1] ∧
    ¬ Consecutive (sentSeqids log) := by
  have hopen : ownerOps (fresh.opened.request
      (openFile ⟨[]⟩ [97] OPEN4_SHARE_ACCESS_READ false 7 1)).args = [(.OPEN, 1)] :=
    ownerOps_openFile _ 1 (by decide) (by decide) _ _ _
  have hclose : ownerOps (fresh.opened.sent.request (close openedFile)).args = [(.CLOSE, 1)] :=
    ownerOps_close _ (by decide)
  -- one id after the OPEN, and the same one again after the CLOSE
  have hopened : sentSeqids ([] ++ openedLog) = [1] := sentSeqids_concat hopen
  have hclosed : sentSeqids closedLog = [1, 1] := by
    unfold closedLog
    rw [sentSeqids_concat hclose]
    exact congrArg (· ++ [1]) hopened
  refine ⟨closedLog, fresh.opened.sent.sent, closed_run, hclosed, ?_⟩
  rw [hclosed]
  intro h
  exact absurd (List.isChain_pair.mp h) (by decide)

end Nfs4Client

end NfsClient
