import NfsClient.Nfs4.Opens

/-!
# Handles

The calls that resolve or create a name return the handle of the GETFH at the end of their COMPOUND,
with the bytes that the server has put there (`handles_keep_identity_iff`). The operations that take a
handle put it in place with PUTFH, but for the empty handle: that one is the sentinel for the root, and
PUTROOTFH takes its place. Nothing keeps the two apart. A server that returns an empty handle makes
the calls hand out the sentinel, and the handle then names another object than the one it came from.
-/

namespace NfsClient

open Xdr Reader Interaction

/-! ### Where handles are used -/

/-- The handles that a method is given. -/
def FileMethod.handles : FileMethod → List Nfs4Fh
  | .lookup dir _ | .mkdir dir _ _ | .remove dir _ | .symlink dir _ _ _ => [dir]
  | .getattr fh | .access fh _ | .readlink fh | .setattr fh _ => [fh]
  | .close f | .read f _ _ | .write f _ _ _ | .commit f _ _ => [f.fh]
  | .rename src_dir _ dst_dir _ => [src_dir, dst_dir]

/-- The COMPOUNDs of an Nfs4Client that are given handles. -/
inductive Nfs4Client.Uses : {α : Type} → CompoundCall α → List Nfs4Fh → Prop
  | file (m : FileMethod) : Uses (Nfs4Client.fileCall m) m.handles
  | openFile (dir : Nfs4Fh) (name : Bytes) (share_access : UInt32) (create : Bool)
      (clientid : UInt64) (seqid : UInt32) :
      Uses (Nfs4Client.openFile dir name share_access create clientid seqid) [dir]
  | openConfirm (fh : Nfs4Fh) (stateid : Stateid4) (confirm_seqid : UInt32) :
      Uses (Nfs4Client.openConfirm fh stateid confirm_seqid) [fh]
  | readdirPage (dir : Nfs4Fh) (cookie : UInt64) (cookieverf : Octets 8) :
      Uses (Nfs4Client.readdirPage dir cookie cookieverf) [dir]

/-- The COMPOUNDs of an Nfs41Client that are given handles. -/
inductive Nfs41Client.Uses : {α : Type} → CompoundCall α → List Nfs4Fh → Prop
  | file (m : FileMethod) : Uses (Nfs41Client.fileCall m) m.handles
  | openFile (dir : Nfs4Fh) (name : Bytes) (share_access : UInt32) (create : Bool)
      (clientid : UInt64) (seqid : UInt32) :
      Uses (Nfs41Client.openFile dir name share_access create clientid seqid) [dir]
  | readdirPage (dir : Nfs4Fh) (cookie : UInt64) (cookieverf : Octets 8) :
      Uses (Nfs41Client.readdirPage dir cookie cookieverf) [dir]

/-- The operations that put a handle of the client in place. -/
def fhOps (ops : List ArgOp) : List ArgOp := ops.filter fun op => op.1 = .PUTFH ∨ op.1 = .PUTROOTFH

theorem fhOps_fhOp (fh : Nfs4Fh) (ops : List ArgOp) : fhOps (fhOp fh :: ops) = fhOp fh :: fhOps ops := by
  refine List.filter_cons_of_pos ?_
  unfold fhOp
  split <;> rfl

theorem FileMethod.fhOps_argOps (m : FileMethod) : fhOps m.argOps = m.handles.map fhOp := by
  cases m with
  | rename src_dir src_name dst_dir dst_name =>
    have hsave : ∀ ops, fhOps (⟨.SAVEFH, ()⟩ :: ops) = fhOps ops := fun _ => rfl
    simp only [FileMethod.argOps, fhOps_fhOp, hsave]
    rfl
  | _ =>
    simp only [FileMethod.argOps, fhOps_fhOp]
    rfl

/-- Each handle has its operation, in order. -/
theorem Nfs4Client.Uses.exists_announces {α : Type} {q : CompoundCall α} {handles : List Nfs4Fh}
    (h : Nfs4Client.Uses q handles) : ∃ ops, q.Announces ops ∧ fhOps ops = handles.map fhOp := by
  cases h with
  | file m => exact ⟨_, Nfs4Client.fileCall_announces m, m.fhOps_argOps⟩
  | openFile dir name share_access create clientid seqid =>
    exact ⟨_, Nfs4Client.openFile_announces dir name share_access create clientid seqid,
      fhOps_fhOp _ _⟩
  | openConfirm fh stateid confirm_seqid =>
    exact ⟨_, Nfs4Client.openConfirm_announces fh stateid confirm_seqid, fhOps_fhOp _ _⟩
  | readdirPage dir cookie cookieverf =>
    exact ⟨_, Nfs4Client.readdirPage_announces dir cookie cookieverf, fhOps_fhOp _ _⟩

theorem Nfs41Client.Uses.exists_announces {α : Type} {q : CompoundCall α} {handles : List Nfs4Fh}
    (h : Nfs41Client.Uses q handles) : ∃ ops, q.Announces ops ∧ fhOps ops = handles.map fhOp := by
  cases h with
  | file m => exact ⟨_, Nfs41Client.fileCall_announces m, m.fhOps_argOps⟩
  | openFile dir name share_access create clientid seqid =>
    exact ⟨_, Nfs41Client.openFile_announces dir name share_access create clientid seqid,
      fhOps_fhOp _ _⟩
  | readdirPage dir cookie cookieverf =>
    exact ⟨_, Nfs41Client.readdirPage_announces dir cookie cookieverf, fhOps_fhOp _ _⟩

/-! ### Identity -/

/-- Wherever the call is given `h`, it sends PUTFH with the bytes `b`. -/
def CompoundCall.Addresses {α : Type} (q : CompoundCall α) (handles : List Nfs4Fh) (h : Nfs4Fh)
    (b : Bytes) : Prop :=
  ∃ ops, q.Announces ops ∧ ∀ i : ℕ, handles[i]? = some h → (fhOps ops)[i]? = some ⟨.PUTFH, b⟩

/-- Every operation of either client that is given `h` addresses it by the bytes `b`. -/
structure KeepsIdentity (h : Nfs4Fh) (b : Bytes) : Prop where
  v40 : ∀ {α : Type} {q : CompoundCall α} {handles : List Nfs4Fh}, Nfs4Client.Uses q handles →
    q.Addresses handles h b
  v41 : ∀ {α : Type} {q : CompoundCall α} {handles : List Nfs4Fh}, Nfs41Client.Uses q handles →
    q.Addresses handles h b

theorem addresses_of_ne_nil {α : Type} {q : CompoundCall α} {handles : List Nfs4Fh} {b : Bytes}
    (hb : b ≠ []) (h : ∃ ops, q.Announces ops ∧ fhOps ops = handles.map fhOp) :
    q.Addresses handles ⟨b⟩ b := by
  obtain ⟨ops, hops, hfhs⟩ := h
  refine ⟨ops, hops, fun i hi => ?_⟩
  rw [hfhs, List.getElem?_map, hi]
  exact congrArg some (if_neg hb)

/-- The GETATTR of the root sentinel is sent behind PUTROOTFH. -/
theorem getattr_root_not_addressed (b : Bytes) :
    ¬ (Nfs4Client.fileCall (.getattr ⟨[]⟩)).Addresses [⟨[]⟩] ⟨[]⟩ b := by
  rintro ⟨ops, hops, hfirst⟩
  have hbytes := hops.ops_eq.symm.trans (Nfs4Client.fileCall_announces (.getattr ⟨[]⟩)).ops_eq
  cases ops with
  | nil => exact absurd (congrArg List.length hbytes) (by decide +kernel)
  | cons op ops =>
    -- the opcodes of the first operation are the same
    have hcode : op.1.code = Op.PUTROOTFH.code := word_injective (List.append_inj
      (((List.append_assoc _ _ _).symm.trans hbytes).trans rfl) rfl).1
    have hop : op.1 = .PUTROOTFH := Option.some.inj <|
      (Op.findArm_code op.1).symm.trans (hcode ▸ Op.findArm_code .PUTROOTFH)
    have hkept : fhOps (op :: ops) = op :: fhOps ops := List.filter_cons_of_pos (by simp [hop])
    have hput := hfirst 0 rfl
    rw [hkept] at hput
    rw [Option.some.inj hput] at hop
    cases hop

/-- **The sentinel.** A handle keeps its identity unless it is the empty one. -/
theorem keepsIdentity_iff (b : Bytes) : KeepsIdentity ⟨b⟩ b ↔ b ≠ [] := by
  constructor
  · rintro h rfl
    exact getattr_root_not_addressed [] (h.v40 (.file (.getattr ⟨[]⟩)))
  · exact fun hb => ⟨fun h => addresses_of_ne_nil hb h.exists_announces,
      fun h => addresses_of_ne_nil hb h.exists_announces⟩

/-! ### Where handles come from -/

/-- The reply is a success, and behind the results of the operations it has that of a GETFH, with the
handle `b`. -/
def HandleReturned (os : List Op) (received : Received) (b : Bytes) : Prop :=
  ∃ (code : UInt32) (pad rest : Bytes), b.length < 2 ^ 32 ∧ pad.length = padLen b.length ∧
    Behind os received 0
      (word code ++ (word 0 ++ (word (UInt32.ofNat b.length) ++ (b ++ (pad ++ rest)))))

/-- The handle of a method is that of the reply. -/
theorem CompoundCall.handleReturned {q : CompoundCall Nfs4Fh} {d : XdrDecoder Nfs4Fh}
    {os : List Op} {received : Received} {fh : Nfs4Fh} (hq : q.decode = do checkCompoundStatus; d)
    (hd : ReadsBehind d os decodeGetfhResult) (hv : q.result received = .ok fh) :
    HandleReturned os received fh.data := by
  obtain ⟨mid, hmid, rest, hfh⟩ := (CompoundCall.result_behind hq hd).mp hv
  obtain ⟨code, pad, hlen, hpad, rfl⟩ := decodeGetfhResult_ok.mp hfh
  exact ⟨code, pad, rest, hlen, hpad, hmid⟩

/-- The handle of an open is that of the reply, behind the result of the OPEN. -/
theorem CompoundCall.openHandleReturned {q : CompoundCall (Open4Result × Nfs4Fh)}
    {d : XdrDecoder (Open4Result × Nfs4Fh)} {os : List Op} {received : Received}
    {open_res : Open4Result} {fh : Nfs4Fh} (hq : q.decode = do checkCompoundStatus; d)
    (hd : ReadsBehind d os decodeOpened) (hv : q.result received = .ok (open_res, fh)) :
    HandleReturned (os ++ [.OPEN]) received fh.data := by
  obtain ⟨mid, ⟨tag, tagBytes, numops, results, htag, hparse, hmid⟩, rest, hdecode⟩ :=
    (CompoundCall.result_behind hq hd).mp hv
  obtain ⟨open_res', mid', hopen, hdecode⟩ := bind_ok.mp hdecode
  obtain ⟨fh', rest', hfh, hdecode⟩ := bind_ok.mp hdecode
  obtain ⟨heq, -⟩ := pure_ok.mp hdecode
  obtain ⟨rfl, rfl⟩ := Prod.mk.inj heq
  obtain ⟨code, pad, hlen, hpad, rfl⟩ := decodeGetfhResult_ok.mp hfh
  have htakes : Op.Takes .OPEN mid _ := ⟨open_res', hopen⟩
  exact ⟨code, pad, rest', hlen, hpad, tag, tagBytes, numops, results, htag, hparse,
    hmid.concat htakes⟩

/-- The handle that a method returns. -/
def FileMethod.handle : (m : FileMethod) → m.Result → Option Nfs4Fh
  | .lookup .., fh | .mkdir .., fh | .symlink .., fh => some fh
  | _, _ => none

/-- The operations whose results come before that of the last one. -/
def FileMethod.before (m : FileMethod) : List Op := (m.argOps.map Sigma.fst).dropLast

theorem FileMethod.handleReturned {m : FileMethod} {v : m.Result} {h : Nfs4Fh}
    (hm : m.handle v = some h) {received : Received} :
    ((Nfs4Client.fileCall m).result received = .ok v → HandleReturned m.before received h.data) ∧
    ((Nfs41Client.fileCall m).result received = .ok v →
      HandleReturned (.SEQUENCE :: m.before) received h.data) := by
  have hlookup : ∀ dir : Nfs4Fh, ReadsBehind
      (do decodePutfhResult; decodeLookupResult; decodeGetfhResult)
      [(fhOp dir).1, .LOOKUP] decodeGetfhResult :=
    fun dir => .cons (takes_fhOp dir) (.cons Iff.rfl (.nil _))
  have hcreate : ∀ dir : Nfs4Fh, ReadsBehind
      (do decodePutfhResult; decodeCreateResult; decodeGetfhResult)
      [(fhOp dir).1, .CREATE] decodeGetfhResult :=
    fun dir => .cons (takes_fhOp dir) (.cons Iff.rfl (.nil _))
  cases m with
  | lookup dir name =>
    cases hm
    exact ⟨CompoundCall.handleReturned rfl (hlookup dir),
      CompoundCall.handleReturned rfl (.cons Iff.rfl (hlookup dir))⟩
  | mkdir dir name attrs =>
    cases hm
    exact ⟨CompoundCall.handleReturned rfl (hcreate dir),
      CompoundCall.handleReturned rfl (.cons Iff.rfl (hcreate dir))⟩
  | symlink dir name target attrs =>
    cases hm
    exact ⟨CompoundCall.handleReturned rfl (hcreate dir),
      CompoundCall.handleReturned rfl (.cons Iff.rfl (hcreate dir))⟩
  -- no other method returns a handle
  | _ => cases hm

/-! ### Runs -/

/-- In the exchanges of a call, the first answer that is not GRACE has a handle, which is the one that
the call returns. It keeps its identity unless it is empty. -/
def HandsOut (os : List Op) (log : List (RpcRequest × Received)) (h : Nfs4Fh) : Prop :=
  ∃ tries x tail b, log = tries ++ x :: tail ∧ (∀ y ∈ tries, IsGrace y.2) ∧
    HandleReturned os x.2 b ∧ h = ⟨b⟩ ∧ (KeepsIdentity h b ↔ b ≠ [])

theorem HandleReturned.handsOut {os : List Op} {x : RpcRequest × Received} {h : Nfs4Fh}
    (hx : HandleReturned os x.2 h.data) {tries tail : List (RpcRequest × Received)}
    (htries : ∀ y ∈ tries, IsGrace y.2) : HandsOut os (tries ++ x :: tail) h :=
  ⟨tries, x, tail, h.data, rfl, htries, hx, rfl, keepsIdentity_iff h.data⟩

theorem Nfs4Client.OpenRun.handsOut {c : Nfs4Client} {dir : Nfs4Fh} {name : Bytes}
    {share_access : UInt32} {create : Bool} {log : List (RpcRequest × Received)}
    {r : Except Exn Nfs4File} {f : Nfs4File}
    (h : OpenRun c dir name share_access create log r) (hf : r = .ok f) :
    HandsOut [(fhOp dir).1, .OPEN] log f.fh := by
  cases h with
  | failed => cases hf
  | @opened _ _ rest _ _ hloop hdec hflags =>
    cases hf
    obtain ⟨tries, x, rfl, htries, -, hresult⟩ := hloop.exists_answer rfl
    have hv := (hresult _).mpr (value_ok.mpr ⟨rest, hdec⟩)
    exact (CompoundCall.openHandleReturned rfl (decodeOpenResults_behind dir) hv).handsOut htries
  | @confirmed _ _ rest _ fh q r' hloop hdec hflags hq =>
    obtain ⟨tries, x, rfl, htries, -, hresult⟩ := hloop.exists_answer rfl
    have hv := (hresult _).mpr (value_ok.mpr ⟨rest, hdec⟩)
    -- the handle is that of the OPEN, the OPEN_CONFIRM adds the stateid only
    have hfh := CompoundCall.openHandleReturned rfl (decodeOpenResults_behind dir) hv
    rw [List.append_assoc]
    cases hconfirm : (openConfirm fh _ (c.open_seqid_ + 1 + 1)).result r' with
    | error e =>
      rw [hconfirm] at hf
      cases hf
    | ok sid =>
      rw [hconfirm] at hf
      cases hf
      exact hfh.handsOut htries

theorem Nfs41Client.OpenRun.handsOut {c : Nfs41Client} {dir : Nfs4Fh} {name : Bytes}
    {share_access : UInt32} {create : Bool} {log : List (RpcRequest × Received)}
    {r : Except Exn Nfs4File} {f : Nfs4File}
    (h : OpenRun c dir name share_access create log r) (hf : r = .ok f) :
    HandsOut [.SEQUENCE, (fhOp dir).1, .OPEN] log f.fh := by
  have hbehind : ReadsBehind (do decodeSequence41Result; decodeOpenResults)
      [.SEQUENCE, (fhOp dir).1] decodeOpened := .cons Iff.rfl (decodeOpenResults_behind dir)
  cases h with
  | failed => cases hf
  | @opened _ rest _ _ hloop hdec hflags =>
    cases hf
    obtain ⟨tries, x, rfl, htries, -, hresult⟩ := hloop.exists_answer rfl
    have hv := (hresult _).mpr (value_ok.mpr ⟨rest, hdec⟩)
    exact (CompoundCall.openHandleReturned rfl hbehind hv).handsOut htries
  | refused => cases hf

namespace Nfs4Client

/-- The handle that a method returns. -/
def Method.handle : (m : Method) → m.Result → Option Nfs4Fh
  | .file m, v => m.handle v
  | .openRead .., f | .openWrite .., f => some f.fh
  | _, _ => none

/-- The operations whose results come before that of the GETFH. -/
def Method.before : Method → List Op
  | .file m => m.before
  | .openRead dir _ | .openWrite dir _ _ => [(fhOp dir).1, .OPEN]
  | _ => []

theorem perform_handsOut (fuel : ℕ) (m : Method) (c : Nfs4Client) :
    wpM anyExchange (fun _ _ => True)
      (fun r _ log => ∀ v h, r = .ok v → m.handle v = some h → HandsOut m.before log h)
      (perform fuel m) c [] := by
  have hopen : ∀ dir name share_access create, wpM anyExchange (fun _ _ => True)
      (fun r _ log => ∀ f h, r = .ok f → some f.fh = some h →
        HandsOut [(fhOp dir).1, .OPEN] log h)
      (doOpen fuel dir name share_access create) c [] := by
    intro dir name share_access create
    refine wpM_doOpen_run (fun _ _ _ _ => trivial) (fun _ _ _ _ _ => trivial) ?_ fuel
    rintro log r c' hrun f h hr ⟨rfl⟩
    exact hrun.handsOut hr
  -- a file method has sent one COMPOUND, and the handle is the one in its reply
  cases m with
  | file m =>
    refine wpM_onRpc_send.mpr ⟨trivial, ?_⟩
    rintro r log rfl v h hr hh
    exact ((FileMethod.handleReturned hh).1 hr).handsOut (fun _ hy => absurd hy List.not_mem_nil)
  | openRead dir name => exact hopen dir name _ _
  | openWrite dir name create => exact hopen dir name _ create
  | readdir dir =>
    exact wpM_readdirLoop (I := fun _ _ => True) (fun _ _ _ _ _ => ⟨trivial, fun _ _ _ => trivial⟩)
      (fun _ _ _ _ _ _ _ hh => nomatch hh) trivial
  | renew =>
    exact wpM_fields_bind.mpr (wpM_onRpc_send.mpr ⟨trivial, fun _ _ _ _ _ _ hh => nomatch hh⟩)
  | setAuthSys auth => exact fun _ _ _ hh => nomatch hh
  | clearAuth => exact fun _ _ _ hh => nomatch hh

end Nfs4Client

namespace Nfs41Client

/-- The handle that a method returns. -/
def Method.handle : (m : Method) → m.Result → Option Nfs4Fh
  | .file m, v => m.handle v
  | .openRead .., f | .openWrite .., f => some f.fh
  | _, _ => none

/-- The operations whose results come before that of the GETFH. -/
def Method.before : Method → List Op
  | .file m => .SEQUENCE :: m.before
  | .openRead dir _ | .openWrite dir _ _ => [.SEQUENCE, (fhOp dir).1, .OPEN]
  | _ => []

theorem perform_handsOut (fuel : ℕ) (m : Method) (c : Nfs41Client) :
    wpM anyExchange (fun _ _ => True)
      (fun r _ log => ∀ v h, r = .ok v → m.handle v = some h → HandsOut m.before log h)
      (perform fuel m) c [] := by
  have hopen : ∀ dir name share_access create, wpM anyExchange (fun _ _ => True)
      (fun r _ log => ∀ f h, r = .ok f → some f.fh = some h →
        HandsOut [.SEQUENCE, (fhOp dir).1, .OPEN] log h)
      (doOpen fuel dir name share_access create) c [] := by
    intro dir name share_access create
    refine wpM_doOpen_run (fun _ _ _ _ => trivial) ?_ fuel
    rintro log r c' hrun f h hr ⟨rfl⟩
    exact hrun.handsOut hr
  cases m with
  | file m =>
    refine wpM_call.mpr ⟨trivial, ?_⟩
    rintro r log rfl v h hr hh
    exact ((FileMethod.handleReturned hh).2 hr).handsOut (fun _ hy => absurd hy List.not_mem_nil)
  | openRead dir name => exact hopen dir name _ _
  | openWrite dir name create => exact hopen dir name _ create
  | readdir dir =>
    exact wpM_readdirLoop (I := fun _ _ => True) (fun _ _ _ _ _ => ⟨trivial, fun _ _ _ => trivial⟩)
      (fun _ _ _ _ _ _ _ hh => nomatch hh) trivial
  | setAuthSys auth => exact fun _ _ _ hh => nomatch hh
  | clearAuth => exact fun _ _ _ hh => nomatch hh

end Nfs41Client

/-- **Handles and their identity.** In every run of a method that returns a handle, the handle is the
one that the server has returned, and every later operation addresses it as such exactly when it is
not empty. -/
theorem handles_keep_identity_iff {S : Type} (step : Step RpcRequest Received S) (fuel : ℕ) :
    (∀ (m : Nfs4Client.Method) (c c' : Nfs4Client) (s s' : S) (tr : List (RpcRequest × Received))
      (v : m.Result) (h : Nfs4Fh),
      Trace step (Nfs4Client.perform fuel m c) s tr (.done (.ok v, c')) s' →
        m.handle v = some h → HandsOut m.before tr h) ∧
    ∀ (m : Nfs41Client.Method) (c c' : Nfs41Client) (s s' : S) (tr : List (RpcRequest × Received))
      (v : m.Result) (h : Nfs4Fh),
      Trace step (Nfs41Client.perform fuel m c) s tr (.done (.ok v, c')) s' →
        m.handle v = some h → HandsOut m.before tr h :=
  ⟨fun m c _ _ _ _ v h htr hh => wp_run htr (Nfs4Client.perform_handsOut fuel m c) v h rfl hh,
    fun m c _ _ _ _ v h htr hh => wp_run htr (Nfs41Client.perform_handsOut fuel m c) v h rfl hh⟩

/-- The reply to a LOOKUP in the root directory, with the handle `b`. -/
def lookupRecord (b : Bytes) : Received :=
  .ok (acceptedHeader 1 0 [] ++ (word 0 ++ (word 0 ++ (word 3 ++ (word Op.PUTROOTFH.code ++
    (word 0 ++ (word Op.LOOKUP.code ++ (word 0 ++ (word Op.GETFH.code ++
      (word 0 ++ varOpaque b))))))))))

theorem handle_of_one_byte :
    HandsOut [.PUTROOTFH, .LOOKUP]
      [(Nfs4Client.fresh.request (Nfs4Client.lookup ⟨[]⟩ [97]), lookupRecord [9])] ⟨[9]⟩ := by
  have hresult : (Nfs4Client.lookup ⟨[]⟩ [97]).result (lookupRecord [9]) = .ok ⟨[9]⟩ := by
    decide +kernel
  have hrun : Trace (fun _ _ _ _ => True)
      (Nfs4Client.perform 0 (.file (.lookup ⟨[]⟩ [97])) Nfs4Client.fresh) ()
      [(Nfs4Client.fresh.request (Nfs4Client.lookup ⟨[]⟩ [97]), lookupRecord [9])]
      (.done (.ok ⟨[9]⟩, Nfs4Client.fresh.sent)) () := by
    change Trace _ (Nfs4Client.onRpc ((Nfs4Client.lookup ⟨[]⟩ [97]).send 0) Nfs4Client.fresh) _ _ _ _
    rw [Nfs4Client.onRpc_send_eq, ← hresult]
    exact .call trivial (.refl _ _)
  exact (handles_keep_identity_iff (fun _ _ _ _ => True) 0).1 (.file (.lookup ⟨[]⟩ [97])) _ _ () ()
    _ _ _ hrun rfl

/-- The file `a` has an empty handle, and removing `b` in it removes `b` in the root. -/
theorem empty_handle_is_root :
    (Nfs4Client.perform 0 (.file (.lookup ⟨[]⟩ [97]))).exec Nfs4Client.fresh [lookupRecord []]
      = (some (.ok ⟨[]⟩, Nfs4Client.fresh.sent), []) ∧
    (Nfs4Client.remove ⟨[]⟩ [98]).ops = encodePutrootfh ++ encodeRemove [98] ∧
    ¬ ∃ b, HandleReturned [.PUTROOTFH, .LOOKUP] (lookupRecord []) b ∧ KeepsIdentity ⟨[]⟩ b := by
  have hresult : (Nfs4Client.lookup ⟨[]⟩ [97]).result (lookupRecord []) = .ok ⟨[]⟩ := by
    decide +kernel
  refine ⟨?_, rfl, ?_⟩
  · rw [← hresult]
    exact Nfs4Client.exec_onRpc_send _ _ _ _
  · rintro ⟨b, -, h⟩
    exact getattr_root_not_addressed b (h.v40 (.file (.getattr ⟨[]⟩)))

end NfsClient
