import NfsClient.Nfs4.Opens
import NfsClient.Nfs4.WellFormed

/-!
# The open-owner of an Nfs4Client

OPEN, OPEN_CONFIRM and CLOSE carry a sequence id of the open-owner, and a server takes such an
operation only with the id after the last one that it has processed. The client has one open-owner
and counts its ids in `open_seqid_`; `do_open` counts up before each OPEN and each OPEN_CONFIRM, and
does so whatever becomes of the request.

So an OPEN that the server has not counted leaves the client ahead of the server, and nothing brings it
back: `open_in_step_iff` says exactly when the next OPEN has the id that the server expects, whatever
becomes of the earlier ones. One OPEN that stops at its PUTFH is enough to leave the client ahead
(`stale_then_ahead`).

All of it rests on one rule for `do_open` (`wpM_doOpen_owner`), in which a request is no more than the
owner operation in it (`ownerOps`): an id is taken, sent, perhaps more than once, and used up.
-/

namespace NfsClient

open Xdr Reader Interaction

/-! ### What the server reads -/

/-- The sequence id of an operation of the open-owner. -/
def ArgOp.ownerSeqid : ArgOp → Option (Op × UInt32)
  | ⟨.OPEN, a⟩ => some (.OPEN, a.seqid)
  | ⟨.OPEN_CONFIRM, a⟩ => some (.OPEN_CONFIRM, a.2)
  | ⟨.CLOSE, a⟩ => some (.CLOSE, a.1)
  | _ => none

/-- The operations of the open-owner in a COMPOUND, with their sequence ids. -/
def ownerOps (args : Bytes) : List (Op × UInt32) :=
  match Compound.format.read args with
  | .ok (c, _) => c.ops.filterMap ArgOp.ownerSeqid
  | .error _ => []

theorem ownerOps_of_read {args rest : Bytes} {c : Compound}
    (h : Compound.format.read args = .ok (c, rest)) :
    ownerOps args = c.ops.filterMap ArgOp.ownerSeqid := by
  unfold ownerOps
  rw [h]

/-- The request of an announced call with bounded operations. -/
theorem CompoundCall.Announces.ownerOps {α : Type} {q : CompoundCall α} {ops : List ArgOp}
    (h : q.Announces ops) (htag : q.tag = []) (hlen : ops.length < 2 ^ 32)
    (hops : ∀ op ∈ ops, ArgOp.format.Fits op) (rpc : TcpRpcClient) (minorversion : UInt32) :
    NfsClient.ownerOps (q.request rpc minorversion).args = ops.filterMap ArgOp.ownerSeqid := by
  have htag' : q.tag.length < 2 ^ 32 := htag ▸ length_nil_lt
  exact ownerOps_of_read (h.read htag' hlen hops rpc minorversion)

theorem ownerSeqid_fhOp (fh : Nfs4Fh) : (fhOp fh).ownerSeqid = none := by
  unfold fhOp
  split <;> rfl

namespace Nfs4Client

section Requests

variable (rpc : TcpRpcClient) (seqid : UInt32)

theorem ownerOps_openFile {dir : Nfs4Fh} {name : Bytes} (hd : dir.data.length < 2 ^ 32)
    (hn : name.length < 2 ^ 32) (share_access : UInt32) (create : Bool) (clientid : UInt64) :
    ownerOps ((openFile dir name share_access create clientid seqid).request rpc 0).args
      = [(.OPEN, seqid)] := by
  have h := (openFile_announces dir name share_access create clientid seqid).ownerOps rfl (by simp)
    (List.forall_mem_cons.mpr ⟨fits_fhOp hd, List.forall_mem_cons.mpr
      ⟨fits_openArgs length_owner_lt hn, List.forall_mem_singleton.mpr trivial⟩⟩) rpc 0
  rw [h, List.filterMap_cons, ownerSeqid_fhOp]
  rfl

theorem ownerOps_openConfirm {fh : Nfs4Fh} (hfh : fh.data.length < 2 ^ 32) (stateid : Stateid4) :
    ownerOps ((openConfirm fh stateid seqid).request rpc 0).args = [(.OPEN_CONFIRM, seqid)] := by
  have h := (openConfirm_announces fh stateid seqid).ownerOps rfl (by simp)
    (List.forall_mem_cons.mpr ⟨fits_fhOp hfh,
      List.forall_mem_singleton.mpr ⟨fits_stateid4 _, trivial⟩⟩) rpc 0
  rw [h, List.filterMap_cons, ownerSeqid_fhOp]
  rfl

theorem ownerOps_close {f : Nfs4File} (hf : f.fh.data.length < 2 ^ 32) :
    ownerOps ((close f).request rpc 0).args = [(.CLOSE, f.seqid)] := by
  have hfits := FileMethod.fits_argOps (m := .close f) hf trivial
  have h := (fileCall_announces (.close f)).ownerOps rfl (by simp [FileMethod.argOps]) hfits rpc 0
  refine h.trans ?_
  rw [FileMethod.argOps, List.filterMap_cons, ownerSeqid_fhOp]
  rfl

end Requests

/-! ### The owner operations of do_open -/

section Rule

variable {S : Type} {step : Step RpcRequest Received S} {ok : S → RpcRequest → Prop}
  {J K : Nfs4Client → S → Prop}

/-- **The rule of `do_open`.** `J` holds when an id has been taken and not sent, or was sent in an
OPEN that is to be repeated; `K` holds when the id is used up. -/
theorem wpM_doOpen_owner {dir : Nfs4Fh} {name : Bytes} (hd : dir.data.length < 2 ^ 32)
    (hn : name.length < 2 ^ 32)
    (hopen : ∀ c s q, J c s → ownerOps q.args = [(.OPEN, c.open_seqid_)] → ok s q ∧
      ∀ r s', step s q r s' → (IsGrace r → J c.sent s') ∧ (¬ IsGrace r → K c.sent s'))
    (hconfirm : ∀ c s q, J c s → ownerOps q.args = [(.OPEN_CONFIRM, c.open_seqid_)] → ok s q ∧
      ∀ r s', step s q r s' → K c.sent s')
    (hnext : ∀ c s, K c s → J c.opened s) (fuel : ℕ) (share_access : UInt32) (create : Bool)
    {c : Nfs4Client} {s : S} (hJ : J c.opened s) :
    wpM step ok (fun r c' s' => K c' s' ∧
        ∀ f, r = .ok f → f.seqid = c'.open_seqid_ ∧ f.fh.data.length < 2 ^ 32)
      (doOpen fuel dir name share_access create) c s := by
  have hops : ∀ c' : Nfs4Client, c'.open_seqid_ = c.open_seqid_ + 1 →
      ownerOps (c'.request (openFile dir name share_access create c.clientid_
        (c.open_seqid_ + 1))).args = [(.OPEN, c'.open_seqid_)] := by
    intro c' hc'
    rw [hc']
    exact ownerOps_openFile _ _ hd hn share_access create c.clientid_
  refine wpM_doOpen_exits (I := fun c' s' => J c' s' ∧ c'.open_seqid_ = c.open_seqid_ + 1) rfl
    ?_ ?_ ?_ ⟨hJ, rfl⟩
  · exact fun c' s' ⟨hJ', hc'⟩ => (hopen c' s' _ hJ' (hops c' hc')).1
  -- GRACE: the same id goes into the next try
  · rintro c' s' r s'' ⟨hJ', hc'⟩ hstep hverdict
    exact ⟨((hopen c' s' _ hJ' (hops c' hc')).2 r s'' hstep).1 (isGrace_of_openVerdict hverdict), hc'⟩
  -- any other verdict: the id has been used, whether or not the OPEN succeeded
  · rintro c' s' r s'' ⟨hJ', hc'⟩ hstep hverdict
    have hK : K c'.sent s'' := ((hopen c' s' _ hJ' (hops c' hc')).2 r s'' hstep).2 fun hgrace =>
      hverdict (openVerdict_of_isGrace hgrace)
    refine ⟨fun e => ⟨hK, fun f hf => nomatch hf⟩, fun open_res fh hresult => ?_⟩
    have hfh := openFile_result_length hresult
    split
    · -- the OPEN_CONFIRM has the next id, whatever comes of it
      obtain ⟨hok, hafter⟩ := hconfirm c'.sent.opened s'' _ (hnext _ _ hK)
        (ownerOps_openConfirm _ _ hfh open_res.stateid)
      refine ⟨hok, fun r' s₃ hstep' => ⟨hafter r' s₃ hstep', fun f hf => ?_⟩⟩
      cases hres : (openConfirm fh open_res.stateid (c'.sent.open_seqid_ + 1)).result r' with
      | error e =>
        rw [hres] at hf
        cases hf
      | ok stateid =>
        rw [hres] at hf
        cases hf
        exact ⟨rfl, hfh⟩
    · refine ⟨hK, fun f hf => ?_⟩
      cases hf
      exact ⟨hc'.symm, hfh⟩

end Rule

/-- A handle whose length fits in its length word. -/
abbrev FittingFh : Type := { fh : Nfs4Fh // fh.data.length < 2 ^ 32 }

/-- A name whose length fits in its length word. -/
abbrev FittingName : Type := { name : Bytes // name.length < 2 ^ 32 }

/-- The calls that open a file. -/
inductive OpenCall
  | openRead (dir : FittingFh) (name : FittingName)
  | openWrite (dir : FittingFh) (name : FittingName) (create : Bool)

def OpenCall.perform (fuel : ℕ) : OpenCall → ClientM Nfs4Client Nfs4File
  | openRead dir name => Nfs4Client.openRead fuel dir name
  | openWrite dir name create => Nfs4Client.openWrite fuel dir name create

end Nfs4Client

/-! ### OPENs that are not counted -/

/-- The open-owner at the server: the id of the last operation that it has counted, the number of
operations that it has not counted, and the number of OPENs that it has counted and that are sent
again all the same. -/
structure OwnerState where
  last : UInt32
  lost : ℕ
  again : ℕ

/-- An OPEN whose answer is GRACE: `do_open` sends it once more. -/
def SentAgain (q : RpcRequest) (r : Received) : Prop :=
  (∃ seqid, ownerOps q.args = [(.OPEN, seqid)]) ∧ IsGrace r

/-- The server counts an operation whose id is the one after the last, or does not count it; what is
received is anything in both cases. -/
inductive OwnerStep : Step RpcRequest Received OwnerState
  | counted {q : RpcRequest} {r : Received} {s : OwnerState} {op : Op}
      (hq : ownerOps q.args = [(op, s.last + 1)]) (hr : ¬ SentAgain q r) :
      OwnerStep s q r { s with last := s.last + 1 }
  | countedAgain {q : RpcRequest} {r : Received} {s : OwnerState} {op : Op}
      (hq : ownerOps q.args = [(op, s.last + 1)]) (hr : SentAgain q r) :
      OwnerStep s q r ⟨s.last + 1, s.lost, s.again + 1⟩
  | uncounted {q : RpcRequest} {r : Received} {s : OwnerState} (hr : ¬ SentAgain q r) :
      OwnerStep s q r { s with lost := s.lost + 1 }
  | uncountedAgain {q : RpcRequest} {r : Received} {s : OwnerState} (hr : SentAgain q r) :
      OwnerStep s q r s

/-- The request carries the id that the server expects next. -/
def OwnerState.Expects (s : OwnerState) (q : RpcRequest) : Prop :=
  ∃ op, ownerOps q.args = [(op, s.last + 1)]

namespace Nfs4Client

/-- The last id taken is used up. -/
def Used (c : Nfs4Client) (s : OwnerState) : Prop :=
  c.open_seqid_ + UInt32.ofNat s.again = s.last + UInt32.ofNat s.lost

/-- The last id taken has not been sent, or is to be sent again. -/
def Taken (c : Nfs4Client) (s : OwnerState) : Prop :=
  c.open_seqid_ + UInt32.ofNat s.again = s.last + 1 + UInt32.ofNat s.lost

section InStep

variable {c : Nfs4Client} {s s' : OwnerState} {q : RpcRequest} {r : Received} {op : Op}

theorem Used.opened (h : Used c s) : Taken c.opened s := by
  have hnext : c.open_seqid_ + 1 + UInt32.ofNat s.again =
      c.open_seqid_ + UInt32.ofNat s.again + 1 := add_right_comm _ _ _
  exact hnext.trans ((congrArg (· + 1) h).trans (add_right_comm _ _ _))

/-- The id taken is the expected one exactly if as many ids were lost as were sent again. -/
theorem Taken.expects_iff (h : Taken c s) (hq : ownerOps q.args = [(op, c.open_seqid_)]) :
    s.Expects q ↔ s.lost ≡ s.again [MOD 2 ^ 32] := by
  have hexpects : s.Expects q ↔ c.open_seqid_ = s.last + 1 := by
    unfold OwnerState.Expects
    rw [hq]
    simp
  have hcount : c.open_seqid_ = s.last + 1 ↔ UInt32.ofNat s.again = UInt32.ofNat s.lost := by
    constructor
    · intro heq
      rw [Taken, heq] at h
      exact add_left_cancel h
    · intro heq
      rw [Taken, heq] at h
      exact add_right_cancel h
  -- equal words are numbers that are equal modulo `2 ^ 32`
  rw [hexpects, hcount, ← UInt32.toNat_inj, UInt32.toNat_ofNat', UInt32.toNat_ofNat']
  exact eq_comm

/-- An OPEN that is sent again keeps its id. -/
theorem Taken.sentAgain (h : Taken c s) (hstep : OwnerStep s q r s') (hr : SentAgain q r) :
    Taken c.sent s' := by
  cases hstep with
  | counted _ hnot => exact absurd hr hnot
  | uncounted hnot => exact absurd hr hnot
  | uncountedAgain => exact h
  | countedAgain =>
    change c.open_seqid_ + UInt32.ofNat (s.again + 1) = s.last + 1 + 1 + UInt32.ofNat s.lost
    rw [UInt32.ofNat_add, ← add_assoc, h]
    exact add_right_comm _ _ _

/-- Any other operation uses the id up, at the server or at the client alone. -/
theorem Taken.sent (h : Taken c s) (hstep : OwnerStep s q r s') (hr : ¬ SentAgain q r) :
    Used c.sent s' := by
  cases hstep with
  | counted => exact h
  | uncounted =>
    change c.open_seqid_ + UInt32.ofNat s.again = s.last + UInt32.ofNat (s.lost + 1)
    rw [UInt32.ofNat_add, ← add_assoc, h]
    exact add_right_comm _ _ _
  | countedAgain _ hagain => exact absurd hagain hr
  | uncountedAgain hagain => exact absurd hagain hr

end InStep

/-- **The step lemma**: a call that opens a file leaves the last id used up, however it ends. -/
theorem OpenCall.wpM_perform (call : OpenCall) (fuel : ℕ) {c : Nfs4Client} {s : OwnerState}
    (h : Used c s) :
    wpM OwnerStep (fun s q => s.Expects q ↔ s.lost ≡ s.again [MOD 2 ^ 32])
      (fun _ c' s' => Used c' s') (call.perform fuel) c s := by
  have hopen : ∀ (dir : FittingFh) (name : FittingName) share_access create,
      wpM OwnerStep (fun s q => s.Expects q ↔ s.lost ≡ s.again [MOD 2 ^ 32])
        (fun _ c' s' => Used c' s') (doOpen fuel dir name share_access create) c s := by
    intro dir name share_access create
    refine wpM_mono (fun _ _ _ hpost => hpost.1)
      (wpM_doOpen_owner (J := Taken) (K := Used) dir.2 name.2 ?_ ?_ ?_ fuel share_access create
        h.opened)
    · intro c' s' q hJ hq
      refine ⟨hJ.expects_iff hq, fun r s'' hstep => ⟨fun hgrace => ?_, fun hgrace => ?_⟩⟩
      · exact hJ.sentAgain hstep ⟨⟨_, hq⟩, hgrace⟩
      · exact hJ.sent hstep fun hagain => hgrace hagain.2
    · intro c' s' q hJ hq
      -- an OPEN_CONFIRM is never sent again
      have hnot : ∀ r, ¬ SentAgain q r := by
        rintro r ⟨⟨seqid, hopen⟩, -⟩
        rw [hq] at hopen
        cases hopen
      exact ⟨hJ.expects_iff hq, fun r s'' hstep => hJ.sent hstep (hnot r)⟩
    · exact fun c' s' hK => hK.opened
  cases call with
  | openRead dir name => exact hopen dir name _ _
  | openWrite dir name create => exact hopen dir name _ create

/-- **The open-owner across failed OPENs.** In every run of calls that open files, whatever is counted
and whatever is received, the next OPEN or OPEN_CONFIRM carries the id that the server expects if and
only if the number of operations not counted so far is that of the counted OPENs sent again, up to
multiples of `2 ^ 32`. -/
theorem open_in_step_iff (fuel : ℕ) (σ : Strategy OpenCall fun _ => Except Exn Nfs4File)
    (c : Nfs4Client) {tr : List (RpcRequest × Received)} {q : RpcRequest}
    {k : Received → Prog RpcRequest Received Nfs4Client} {s : OwnerState}
    (hrun : Trace OwnerStep (σ.prog (fun call => call.perform fuel) c) ⟨c.open_seqid_, 0, 0⟩ tr
      (.call q k) s) :
    s.Expects q ↔ s.lost ≡ s.again [MOD 2 ^ 32] := by
  have hwp := Strategy.wp_prog (fun call c s => OpenCall.wpM_perform call fuel (c := c) (s := s)) σ c
    ⟨c.open_seqid_, 0, 0⟩ rfl
  exact (wp_trace hrun hwp).1

def NFS4ERR_STALE : UInt32 := 70

/-- The reply to a COMPOUND that stopped at a PUTFH of a stale handle. -/
def staleRecord : Received :=
  .ok (acceptedHeader 1 0 [] ++ (word NFS4ERR_STALE ++ (word 0 ++ (word 1 ++
    (word Op.PUTFH.code ++ word NFS4ERR_STALE)))))

theorem not_isGrace_staleRecord : ¬ IsGrace staleRecord := by
  have hstale : AnsweredWith staleRecord NFS4ERR_STALE :=
    ⟨word 0 ++ (word 1 ++ (word Op.PUTFH.code ++ word NFS4ERR_STALE)),
      parseReply_accepted 1 0 length_nil_lt (word NFS4ERR_STALE ++ (word 0 ++ (word 1 ++
        (word Op.PUTFH.code ++ word NFS4ERR_STALE))))⟩
  intro h
  exact absurd (h.status_eq hstale) (by decide)

/-- Opening the file `a` for reading, in a directory whose handle is one byte. -/
def openOnce : OpenCall := .openRead ⟨⟨[9]⟩, by decide⟩ ⟨[97], by decide⟩

/-- A caller that tries twice, whatever comes of the first call. -/
def openTwice : Strategy OpenCall fun _ => Except Exn Nfs4File :=
  .invoke openOnce fun _ => .invoke openOnce fun _ => .stop

theorem stale_run : ∃ k, Trace OwnerStep (openTwice.prog (fun call => call.perform 1) fresh) ⟨0, 0, 0⟩
    [(fresh.opened.request (openFile ⟨[9]⟩ [97] OPEN4_SHARE_ACCESS_READ false 7 1), staleRecord)]
    (.call (fresh.opened.sent.opened.request (openFile ⟨[9]⟩ [97] OPEN4_SHARE_ACCESS_READ false 7 2)) k)
    ⟨0, 1, 0⟩ :=
  ⟨_, .call (.uncounted fun h => not_isGrace_staleRecord h.2) (.refl _ _)⟩

/-- The first OPEN stops at its PUTFH, so that nothing is counted, and the next one has the id 2; the
server expects 1. -/
theorem stale_then_ahead : ∃ q k, Trace OwnerStep
      (openTwice.prog (fun call => call.perform 1) fresh) ⟨fresh.open_seqid_, 0, 0⟩
      [(fresh.opened.request (openFile ⟨[9]⟩ [97] OPEN4_SHARE_ACCESS_READ false 7 1), staleRecord)]
      (.call q k) ⟨0, 1, 0⟩ ∧
    ownerOps q.args = [(.OPEN, 2)] ∧ ¬ OwnerState.Expects ⟨0, 1, 0⟩ q := by
  obtain ⟨k, hrun⟩ := stale_run
  have hops : ownerOps (fresh.opened.sent.opened.request
      (openFile ⟨[9]⟩ [97] OPEN4_SHARE_ACCESS_READ false 7 2)).args = [(.OPEN, 2)] :=
    ownerOps_openFile _ 2 (by decide) (by decide) _ _ _
  refine ⟨_, k, hrun, hops, ?_⟩
  rintro ⟨op, hop⟩
  rw [hops] at hop
  have hid : (2 : UInt32) = 0 + 1 := congrArg Prod.snd (List.head_eq_of_cons_eq hop)
  exact absurd hid (by decide)

theorem counted_run : ∃ k, Trace OwnerStep (openTwice.prog (fun call => call.perform 1) fresh)
    ⟨fresh.open_seqid_, 0, 0⟩
    [(fresh.opened.request (openFile ⟨[9]⟩ [97] OPEN4_SHARE_ACCESS_READ false 7 1),
      .error (.runtimeError "recv failed"))]
    (.call (fresh.opened.sent.opened.request
      (openFile ⟨[9]⟩ [97] OPEN4_SHARE_ACCESS_READ false 7 2)) k) ⟨1, 0, 0⟩ := by
  have hops : ownerOps (fresh.opened.request
      (openFile ⟨[9]⟩ [97] OPEN4_SHARE_ACCESS_READ false 7 1)).args = [(.OPEN, 0 + 1)] :=
    ownerOps_openFile _ 1 (by decide) (by decide) _ _ _
  refine ⟨_, .call (.counted hops ?_) (.refl _ _)⟩
  rintro ⟨-, rest, hparse⟩
  cases hparse

/-- Once the first OPEN has been counted, whatever became of its reply, the next one is expected. -/
theorem expects_after_counted : OwnerState.Expects ⟨1, 0, 0⟩ (fresh.opened.sent.opened.request
    (openFile ⟨[9]⟩ [97] OPEN4_SHARE_ACCESS_READ false 7 2)) := by
  obtain ⟨k, hrun⟩ := counted_run
  exact (open_in_step_iff 1 openTwice fresh hrun).mpr rfl

end Nfs4Client

end NfsClient
