import NfsClient.Nfs4.ClientTable
import NfsClient.Nfs4.WellFormed

/-!
# Clients that share a server

Any number of `Nfs4Client` objects, or of `Nfs41Client` objects, that talk to one server. Each of them
calls itself by the same string (`owner`), and what tells them apart is the verifier, the time at
which they were constructed. To the server that is one client that reboots. So the clientid of a client
whose constructor has returned is known to the server for as long as no other client's handshake is
confirmed, and not after that (`clientid_live_iff`): the second client discards the first one's
clientid (`second_discards_first`).

The requests of a client are put under three heads by their first operation (`askHead`): those that
propose a client, those that confirm one, and all others. The constructors make one of each of the
first two, and the methods none.
-/

namespace NfsClient

open Xdr Reader Interaction

/-! ### What a request asks -/

theorem Op.code_injective {o o' : Op} (h : o.code = o'.code) : o = o' := by
  have hfind := Op.findArm_code o
  rw [h, Op.findArm_code o'] at hfind
  exact (Option.some.inj hfind).symm

/-- Whatever is read as the first operation, it has the code of what was written. -/
theorem readHead_op {tag rest : Bytes} {op op' : ArgOp} (htag : tag.length < 2 ^ 32)
    {minorversion : UInt32} {ops : List ArgOp}
    (h : readHead (Compound.format.write ⟨tag, minorversion, op :: ops⟩) = .ok (op', rest)) :
    op'.1 = op.1 := by
  rw [readHead_eq htag] at h
  obtain ⟨-, hbytes⟩ := ArgOp.format.read_ok.mp h
  have hwords : word op.1.code ++ (op.1.argFormat.write op.2 ++ writeOps ops) =
      word op'.1.code ++ (op'.1.argFormat.write op'.2 ++ rest) := by
    simpa [ArgOp.format, Format.union, List.append_assoc] using hbytes
  exact Op.code_injective (word_injective (List.append_inj hwords rfl).1.symm)

/-- What the first operation of a COMPOUND asks. -/
def askHead {T : Type} (asks : ArgOp → Ask T) (q : RpcRequest) : Ask T :=
  if q.prog = NFS4_PROG then
    match readHead q.args with
    | .ok (op, _) => asks op
    | .error _ => .other
  else .other

section askHead

variable {T : Type} {asks : ArgOp → Ask T} {q : RpcRequest} {tag : Bytes} {minorversion : UInt32}
  {op : ArgOp} {ops : List ArgOp}

theorem askHead_getport (asks : ArgOp → Ask T) :
    askHead asks (getportRequest NFS4_PROG NFS4_VERS) = .other :=
  if_neg (by decide : (getportRequest NFS4_PROG NFS4_VERS).prog ≠ NFS4_PROG)

theorem askHead_write (hprog : q.prog = NFS4_PROG)
    (hargs : q.args = Compound.format.write ⟨tag, minorversion, op :: ops⟩)
    (htag : tag.length < 2 ^ 32) (hop : ArgOp.format.Fits op) : askHead asks q = asks op := by
  unfold askHead
  rw [if_pos hprog, hargs, readHead_write htag hop]

theorem askHead_other (hprog : q.prog = NFS4_PROG)
    (hargs : q.args = Compound.format.write ⟨tag, minorversion, op :: ops⟩)
    (htag : tag.length < 2 ^ 32) (hop : ∀ a, asks ⟨op.1, a⟩ = .other) : askHead asks q = .other := by
  unfold askHead
  rw [if_pos hprog, hargs]
  cases hread : readHead (Compound.format.write ⟨tag, minorversion, op :: ops⟩) with
  | error e => rfl
  | ok x =>
    obtain ⟨⟨o, a⟩, rest⟩ := x
    obtain rfl : o = op.1 := readHead_op htag hread
    exact hop a

variable {α : Type} {call : CompoundCall α}

theorem askHead_request (hcall : call.Announces (op :: ops)) (htag : call.tag.length < 2 ^ 32)
    (hop : ArgOp.format.Fits op) (rpc : TcpRpcClient) (minorversion : UInt32) :
    askHead asks (call.request rpc minorversion) = asks op := by
  have hargs : (call.request rpc minorversion).args =
      Compound.format.write ⟨call.tag, minorversion, op :: ops⟩ := hcall.compoundArgs minorversion
  exact askHead_write rfl hargs htag hop

theorem askHead_request_other (hcall : call.Announces (op :: ops)) (htag : call.tag.length < 2 ^ 32)
    (hop : ∀ a, asks ⟨op.1, a⟩ = .other) (rpc : TcpRpcClient) (minorversion : UInt32) :
    askHead asks (call.request rpc minorversion) = .other := by
  have hargs : (call.request rpc minorversion).args =
      Compound.format.write ⟨call.tag, minorversion, op :: ops⟩ := hcall.compoundArgs minorversion
  exact askHead_other rfl hargs htag hop

end askHead

/-! ### The life of a client -/

/-- A client in use: what it is constructed with, and what is done with it. -/
structure Life {M : Type} (Result : M → Type) where
  now : UInt64
  auth : Option AuthSys
  fuel : ℕ
  caller : Strategy M fun m => Except Exn (Result m)

namespace Life

variable {M C T ι : Type} {Result : M → Type} {new : UInt64 → Option AuthSys → ClientM Unit C}
  {perform : ℕ → (m : M) → ClientM C (Result m)}

def construct (new : UInt64 → Option AuthSys → ClientM Unit C) (l : Life Result) :
    Prog RpcRequest Received (Option C) :=
  (new l.now l.auth ()).bind fun rc => .done rc.1.toOption

def serve (perform : ℕ → (m : M) → ClientM C (Result m)) (l : Life Result) (c : C) :
    Prog RpcRequest Received Unit :=
  (l.caller.prog (perform l.fuel) c).bind fun _ => .done ()

/-- What all methods send, every caller sends. -/
theorem serve_only {P : RpcRequest → Prop} (l : Life Result)
    (hmethod : ∀ (m : M) (c : C) (u : Unit), wpM (fun _ _ _ _ => True) (fun _ q => P q)
      (fun _ _ _ => True) (perform l.fuel m) c u) (c : C) : (l.serve perform c).Only P := by
  have hcaller : wp (fun (_ : Unit) _ _ _ => True) (fun _ q => P q) (fun _ _ => True)
      (l.caller.prog (perform l.fuel) c) () := by
    apply Strategy.wp_prog
    · exact fun m c u _ => hmethod m c u
    · exact trivial
  exact wp_bind.mpr (wp_mono (fun _ _ _ => trivial) hcaller)

theorem establishes [DecidableEq ι] {H : Handshake T} {owner : Bytes} {verifier : ι → Octets 8}
    {clientid : C → UInt64} {i : ι} {s : Registry ι T} (l : Life Result)
    (hnew : wpM (interfered (Registry.Relies i) (RegistryStep H i))
      (Registry.ConfirmsOwn owner verifier H i)
      (fun r _ s => ∀ c, r = .ok c → s.confirmsOf i = [clientid c]) (new l.now l.auth) () s) :
    (Registry.contract H owner verifier clientid).Establishes i (l.construct new) s := by
  refine wp_bind.mpr (wp_mono ?_ hnew)
  rintro ⟨r, u⟩ s hpost c hc
  cases r with
  | error e => cases hc
  | ok c' =>
    cases hc
    exact hpost c rfl

end Life

namespace Nfs4Client

/-- What an operation asks of the client table. -/
def asks : ArgOp → Ask (Octets 8)
  | ⟨.SETCLIENTID, (verifier, owner, _)⟩ => .propose owner verifier
  | ⟨.SETCLIENTID_CONFIRM, (clientid, confirm_verifier)⟩ => .confirm clientid confirm_verifier
  | _ => .other

def handshake : Handshake (Octets 8) where
  ask := askHead asks
  Granted clientid confirm_verifier r := ∃ reply : SuccessReply, SuccessReply.format.Fits reply ∧
    reply.results = [⟨.SETCLIENTID, (clientid, confirm_verifier)⟩] ∧ reply.InRecord r

theorem asks_of_isHead {op : ArgOp} (h : op.IsHead) (a : op.1.Args) : asks ⟨op.1, a⟩ = .other := by
  obtain ⟨o, _⟩ := op
  obtain rfl | rfl | rfl : o = .PUTFH ∨ o = .PUTROOTFH ∨ o = .RENEW := h
  all_goals rfl

theorem ask_setclientid (now : UInt64) (rpc : TcpRpcClient) :
    handshake.ask ((setclientid now).request rpc 0) = .propose owner (bootVerifier now) := by
  have hfits : ArgOp.format.Fits
      ⟨.SETCLIENTID, (bootVerifier now, owner, 0, ascii "tcp", ascii "0.0.0.0.0.0", 0)⟩ :=
    ⟨trivial, length_owner_lt, trivial, (by decide : (ascii "tcp").length < 2 ^ 32),
      (by decide : (ascii "0.0.0.0.0.0").length < 2 ^ 32), trivial⟩
  exact askHead_request (setclientid_announces now) length_init_lt hfits rpc 0

theorem ask_setclientidConfirm (res : SetclientidResult) (rpc : TcpRpcClient) :
    handshake.ask ((setclientidConfirm res).request rpc 0) =
      .confirm res.clientid res.confirm_verifier := by
  have hfits : ArgOp.format.Fits ⟨.SETCLIENTID_CONFIRM, (res.clientid, res.confirm_verifier)⟩ :=
    ⟨trivial, trivial⟩
  exact askHead_request (setclientidConfirm_announces res) length_init_lt hfits rpc 0

theorem ask_getRootFh (rpc : TcpRpcClient) : handshake.ask (getRootFh.request rpc 0) = .other :=
  askHead_request_other getRootFh_announces length_nil_lt (fun _ => rfl) rpc 0

/-- A grant is read as such. -/
theorem setclientid_result {now : UInt64} {clientid : UInt64} {confirm_verifier : Octets 8}
    {r : Received} (h : handshake.Granted clientid confirm_verifier r) :
    (setclientid now).result r = .ok ⟨clientid, confirm_verifier⟩ := by
  obtain ⟨reply, hfits, hres, hr⟩ := h
  refine CompoundCall.result_of_decode hr (decode_reply hfits ?_)
  rw [hres, writeResults, List.flatMap_singleton]
  exact opStatus_bind_reads _ <| (getUint64_reads clientid).bind <|
    (getArray_reads confirm_verifier).bind_nil (Reads.pure _)

/-- A constructor that returns has confirmed the clientid of its client, whatever others do. -/
theorem wpM_new_shared {ι : Type} [DecidableEq ι] (lives : ι → Life Method.Result)
    (table : ClientTable (Octets 8)) (i : ι) :
    wpM (interfered (Registry.Relies i) (RegistryStep handshake i))
      (Registry.ConfirmsOwn owner (fun i => bootVerifier (lives i).now) handshake i)
      (fun r _ s => ∀ c, r = .ok c → s.confirmsOf i = [c.clientid_])
      (new (lives i).now (lives i).auth) () ⟨table, []⟩ := by
  have hportmap : handshake.ask (getportRequest NFS4_PROG NFS4_VERS) = .other :=
    askHead_getport asks
  have hthrow : ∀ {e : Exn} {s : Registry ι (Octets 8)} (c : Nfs4Client),
      (Except.error e : Except Exn Nfs4Client) = .ok c → s.confirmsOf i = [c.clientid_] := by
    intro e s c hc
    cases hc
  refine wpM_connectNfs_bind (Registry.confirmsOwn_of_other hportmap) fun r s hstep =>
    ⟨fun _ => hthrow, fun rpc => ?_⟩
  have hempty : s.confirmsOf i = [] := Registry.interfered_other hportmap hstep
  refine wpM_bind.mpr (wpM_onLocal.mpr (wpM_doSetclientidConfirm.mpr ⟨?_, fun r s₁ hstep => ?_⟩))
  · exact Registry.confirmsOwn_of_propose (ask_setclientid _ _)
  obtain ⟨e, he⟩ | ⟨clientid, token, hgranted, hissued, hempty⟩ :=
    Registry.proposed (setclientid (lives i).now) rfl (ask_setclientid _ _) hstep hempty
  · rw [he]
    exact hthrow
  rw [setclientid_result hgranted]
  refine ⟨fun clientid' token' hask => ?_, fun r s₂ hstep => ?_⟩
  · obtain ⟨rfl, -⟩ := Ask.confirm.inj (hask.symm.trans (ask_setclientidConfirm _ _))
    exact hissued
  -- the clientid is its own, and no other has been confirmed before
  cases hresult : (setclientidConfirm ⟨clientid, token⟩).result r with
  | error e => exact hthrow
  | ok u =>
    have hconfirms : s₂.confirmsOf i = [clientid] :=
      Registry.confirmed rfl (ask_setclientidConfirm _ _) hstep hempty hresult
    refine wpM_bind.mpr (wpM_onLocal.mpr (wpM_doGetRootFh.mpr
      ⟨Registry.confirmsOwn_of_other (ask_getRootFh _), fun r s₃ hstep => ?_⟩))
    have hkept : s₃.confirmsOf i = [clientid] :=
      (Registry.interfered_other (ask_getRootFh _) hstep).trans hconfirms
    cases getRootFh.result r with
    | error e => exact hthrow
    | ok _ =>
      intro c hc
      cases hc
      exact hkept

theorem serve_only (l : Life Method.Result) (c : Nfs4Client) :
    (l.serve perform c).Only fun q => handshake.ask q = .other := by
  refine l.serve_only (fun m c u => ?_) c
  exact wpM_perform (fun hq htag hop rpc => askHead_request_other hq (htag ▸ length_nil_lt)
    (asks_of_isHead hop) rpc 0) l.fuel m c u

end Nfs4Client

namespace Nfs41Client

/-- What an operation asks of the client table. -/
def asks : ArgOp → Ask UInt32
  | ⟨.EXCHANGE_ID, (verifier, owner, _)⟩ => .propose owner verifier
  | ⟨.CREATE_SESSION, a⟩ => .confirm a.clientid a.sequenceid
  | _ => .other

def handshake : Handshake UInt32 where
  ask := askHead asks
  Granted clientid sequenceid r := ∃ (reply : SuccessReply) (ex : ExchangeIdRes),
    SuccessReply.format.Fits reply ∧ reply.results = [⟨.EXCHANGE_ID, ex⟩] ∧ reply.InRecord r ∧
      ex.clientid = clientid ∧ ex.sequenceid = sequenceid

theorem ask_exchangeId (now : UInt64) (rpc : TcpRpcClient) :
    handshake.ask ((exchangeId now).request rpc 1) = .propose owner (bootVerifier now) := by
  have himpl : (Format.array Wire.implId).Fits [] :=
    ⟨by decide, fun _ h => absurd h List.not_mem_nil⟩
  have hfits : ArgOp.format.Fits ⟨.EXCHANGE_ID, (bootVerifier now, owner, 0x00020000, (), [])⟩ :=
    ⟨trivial, length_owner_lt, trivial, trivial, himpl⟩
  exact askHead_request (exchangeId_announces now) length_init_lt hfits rpc 1

theorem ask_createSession (exid : ExchangeIdResult) (rpc : TcpRpcClient) :
    handshake.ask ((createSession exid).request rpc 1) = .confirm exid.clientid exid.sequenceid :=
  askHead_request (createSession_announces exid) length_init_lt (fits_createSessionArgs exid) rpc 1

/-- Inside the session a COMPOUND begins with its SEQUENCE. -/
theorem ask_request {α : Type} {q : CompoundCall α} {ops : List ArgOp} (hq : q.Announces ops)
    (htag : q.tag.length < 2 ^ 32) (c : Nfs41Client) : handshake.ask (c.request q) = .other := by
  have hargs : (c.request q).args =
      Compound.format.write ⟨q.tag, 1, sequenceOp c.sessionid_ c.slot_seqid_ :: ops⟩ :=
    sequenced_compoundArgs hq _ _
  exact askHead_other rfl hargs htag fun _ => rfl

theorem exchangeId_granted {now : UInt64} {clientid : UInt64} {sequenceid : UInt32} {r : Received}
    (h : handshake.Granted clientid sequenceid r) :
    (exchangeId now).result r = .ok ⟨clientid, sequenceid⟩ := by
  obtain ⟨reply, ex, hfits, hres, hr, rfl, rfl⟩ := h
  exact exchangeId_result hfits hres hr

/-- A constructor that returns has confirmed the clientid of its client, whatever others do. -/
theorem wpM_new_shared {ι : Type} [DecidableEq ι] (lives : ι → Life Method.Result)
    (table : ClientTable UInt32) (i : ι) :
    wpM (interfered (Registry.Relies i) (RegistryStep handshake i))
      (Registry.ConfirmsOwn owner (fun i => bootVerifier (lives i).now) handshake i)
      (fun r _ s => ∀ c, r = .ok c → s.confirmsOf i = [c.clientid_])
      (new (lives i).now (lives i).auth) () ⟨table, []⟩ := by
  have hportmap : handshake.ask (getportRequest NFS4_PROG NFS4_VERS) = .other :=
    askHead_getport asks
  have hthrow : ∀ {e : Exn} {s : Registry ι UInt32} (c : Nfs41Client),
      (Except.error e : Except Exn Nfs41Client) = .ok c → s.confirmsOf i = [c.clientid_] := by
    intro e s c hc
    cases hc
  refine wpM_connectNfs_bind (Registry.confirmsOwn_of_other hportmap) fun r s hstep =>
    ⟨fun _ => hthrow, fun rpc => ?_⟩
  have hempty : s.confirmsOf i = [] := Registry.interfered_other hportmap hstep
  refine wpM_bind.mpr (wpM_onLocal.mpr (wpM_doBootstrap.mpr ⟨?_, fun r s₁ hstep => ?_⟩))
  · exact Registry.confirmsOwn_of_propose (ask_exchangeId _ _)
  obtain ⟨e, he⟩ | ⟨clientid, token, hgranted, hissued, hempty⟩ :=
    Registry.proposed (exchangeId (lives i).now) rfl (ask_exchangeId _ _) hstep hempty
  · rw [he]
    exact hthrow
  rw [exchangeId_granted hgranted]
  refine ⟨fun clientid' token' hask => ?_, fun r s₂ hstep => ?_⟩
  · obtain ⟨rfl, -⟩ := Ask.confirm.inj (hask.symm.trans (ask_createSession _ _))
    exact hissued
  -- the clientid is its own, and no other has been confirmed before
  cases hresult : (createSession ⟨clientid, token⟩).result r with
  | error e => exact hthrow
  | ok sid =>
    have hconfirms : s₂.confirmsOf i = [clientid] :=
      Registry.confirmed rfl (ask_createSession _ _) hstep hempty hresult
    -- the two COMPOUNDs that enter the session
    have hreclaim := fun c => ask_request reclaimComplete_announces length_init_lt c
    have hroot := fun c => ask_request getRootFh_announces length_nil_lt c
    refine wpM_bind.mpr (wpM_onLocal.mpr (wpM_enterSession.mpr
      ⟨Registry.confirmsOwn_of_other (hreclaim _), fun r s₃ hstep => ?_⟩))
    have hkept₃ : s₃.confirmsOf i = [clientid] :=
      (Registry.interfered_other (hreclaim _) hstep).trans hconfirms
    cases reclaimComplete.result r with
    | error e => exact hthrow
    | ok _ =>
      refine ⟨Registry.confirmsOwn_of_other (hroot _), fun r s₄ hstep => ?_⟩
      have hkept₄ : s₄.confirmsOf i = [clientid] :=
        (Registry.interfered_other (hroot _) hstep).trans hkept₃
      cases getRootFh.result r with
      | error e => exact hthrow
      | ok _ =>
        intro c hc
        cases hc
        exact hkept₄

theorem serve_only (l : Life Method.Result) (c : Nfs41Client) :
    (l.serve perform c).Only fun q => handshake.ask q = .other := by
  refine l.serve_only (fun m c u => ?_) c
  exact wpM_perform (I := fun _ _ => True) (fun _ _ _ _ _ _ => trivial)
    (fun hq htag c _ _ => ⟨ask_request hq (htag ▸ length_nil_lt) c, fun _ _ _ => trivial⟩) l.fuel m
    trivial

end Nfs41Client

/-! ### Clients of one server -/

/-- **Clients that call themselves by one string.** In every run of any number of clients of one
version with different verifiers, in whatever order they send, the clientid of a client whose
constructor has returned is known to the server if and only if no other client's handshake has been
confirmed since its own was. -/
theorem clientid_live_iff {ι : Type} [DecidableEq ι] :
    (∀ lives : ι → Life Nfs4Client.Method.Result,
      (∀ i j, bootVerifier (lives i).now = bootVerifier (lives j).now → i = j) →
      ∀ table parties s, SharedRun (RegistryStep Nfs4Client.handshake)
          (fun i => (lives i).construct Nfs4Client.new) (fun i => (lives i).serve Nfs4Client.perform)
          ⟨table, []⟩ (parties, s) →
        ∀ i c p, parties i = .returned c p →
          (s.table.Live c.clientid_ ↔ s.lastConfirmed = some i)) ∧
    (∀ lives : ι → Life Nfs41Client.Method.Result,
      (∀ i j, bootVerifier (lives i).now = bootVerifier (lives j).now → i = j) →
      ∀ table parties s, SharedRun (RegistryStep Nfs41Client.handshake)
          (fun i => (lives i).construct Nfs41Client.new) (fun i => (lives i).serve Nfs41Client.perform)
          ⟨table, []⟩ (parties, s) →
        ∀ i c p, parties i = .returned c p →
          (s.table.Live c.clientid_ ↔ s.lastConfirmed = some i)) := by
  constructor
  · intro lives hverifier table parties s hrun i c p hi
    exact Registry.live_of_run hverifier
      (fun i => (lives i).establishes (Nfs4Client.wpM_new_shared lives table i))
      (fun i c => Nfs4Client.serve_only (lives i) c) hrun hi
  · intro lives hverifier table parties s hrun i c p hi
    exact Registry.live_of_run hverifier
      (fun i => (lives i).establishes (Nfs41Client.wpM_new_shared lives table i))
      (fun i c => Nfs41Client.serve_only (lives i) c) hrun hi

/-! ### Two clients -/

namespace ClientTable

/-- A table without records. -/
def empty {T : Type} : ClientTable T := ⟨fun _ => ⟨none, none⟩, fun _ => none⟩

/-- The table after a proposal that is new and has been confirmed. -/
def enrol {T : Type} (t : ClientTable T) (owner : Bytes) (verifier : Octets 8) (clientid : UInt64)
    (token : T) : ClientTable T :=
  ((t.issue clientid owner verifier).setRecord owner
    ⟨(t.records owner).confirmed, some (verifier, clientid, token)⟩).setRecord owner
      ⟨some (verifier, clientid), none⟩

end ClientTable

theorem Registry.steps_enrol {ι T : Type} {H : Handshake T} (i : ι) {t : ClientTable T}
    (confirms : List (ι × UInt64)) {q₁ q₂ : RpcRequest} {r₁ : Received} {owner : Bytes}
    {verifier : Octets 8} {clientid : UInt64} {token : T} (hq₁ : H.ask q₁ = .propose owner verifier)
    (hr₁ : H.Granted clientid token r₁) (hq₂ : H.ask q₂ = .confirm clientid token)
    (hissued : t.issued clientid = none)
    (hunknown : ∀ other, (t.records owner).confirmed ≠ some (verifier, other)) :
    ∃ t', RegistryStep H i ⟨t, confirms⟩ q₁ r₁ ⟨t', confirms⟩ ∧ ∀ r₂, RegistryStep H i ⟨t', confirms⟩
      q₂ r₂ ⟨t.enrol owner verifier clientid token, (i, clientid) :: confirms⟩ := by
  refine ⟨_, .mk (.propose hq₁ (.new hissued hunknown) (.inl hr₁)), fun r₂ => ?_⟩
  exact .mk (.confirm hq₂ (.pending (if_pos rfl) (congrArg ClientRecord.pending (if_pos rfl))))

/-- The reply in a record. -/
def SuccessReply.record (reply : SuccessReply) : Received :=
  .ok (acceptedHeader 0 0 [] ++ reply.bytes)

def portRecord : Received := .ok (acceptedHeader 0 0 [] ++ word 2049)

/-- When the two clients are constructed, and which clientids they are given. -/
def bootTime (i : Bool) : UInt64 := bif i then 2 else 1

def clientidOf (i : Bool) : UInt64 := bif i then 8 else 7

namespace Nfs4Client

def setclientidReply (clientid : UInt64) : SuccessReply :=
  ⟨[], [⟨.SETCLIENTID, (clientid, Octets.zero 8)⟩]⟩

def confirmReply : SuccessReply := ⟨[], [⟨.SETCLIENTID_CONFIRM, ()⟩]⟩

def rootReply : SuccessReply := ⟨[], [⟨.PUTROOTFH, ()⟩, ⟨.GETFH, [9]⟩]⟩

theorem granted_setclientidReply (clientid : UInt64) :
    handshake.Granted clientid (Octets.zero 8) (setclientidReply clientid).record := by
  have hfits : SuccessReply.format.Fits (setclientidReply clientid) :=
    SuccessReply.fits_iff.mpr ⟨length_nil_lt, (by decide : 1 < 2 ^ 32),
      List.forall_mem_singleton.mpr ⟨trivial, trivial⟩⟩
  exact ⟨setclientidReply clientid, hfits, rfl, 0, 0, [], by decide, rfl⟩

/-- A client that is constructed and not used. -/
def idle (i : Bool) : Life Method.Result := ⟨bootTime i, none, 0, .stop⟩

def constructed (i : Bool) : Nfs4Client :=
  ⟨(TcpRpcClient.connect 2049).bump.bump.bump, ⟨[]⟩, clientidOf i, 0⟩

set_option maxRecDepth 20000 in
theorem idle_constructs (i : Bool) (t : ClientTable (Octets 8)) (confirms : List (Bool × UInt64))
    (hissued : t.issued (clientidOf i) = none)
    (hunknown : ∀ other, (t.records owner).confirmed ≠ some (bootVerifier (bootTime i), other)) :
    ∃ tr, Trace (RegistryStep handshake i) ((idle i).construct new) ⟨t, confirms⟩ tr
      (.done (some (constructed i)))
      ⟨t.enrol owner (bootVerifier (bootTime i)) (clientidOf i) (Octets.zero 8),
        (i, clientidOf i) :: confirms⟩ := by
  have hport : RegistryStep handshake i ⟨t, confirms⟩ (getportRequest NFS4_PROG NFS4_VERS) portRecord
      ⟨t, confirms⟩ := .mk (.other (askHead_getport asks))
  obtain ⟨t', hpropose, hconfirm⟩ := Registry.steps_enrol i confirms
    (ask_setclientid (bootTime i) (TcpRpcClient.connect 2049))
    (granted_setclientidReply (clientidOf i))
    (ask_setclientidConfirm ⟨clientidOf i, Octets.zero 8⟩ (TcpRpcClient.connect 2049).bump)
    hissued hunknown
  have hroot : ∀ s : Registry Bool (Octets 8), RegistryStep handshake i s
      (getRootFh.request (TcpRpcClient.connect 2049).bump.bump 0) rootReply.record s :=
    fun s => .mk (.other (ask_getRootFh _))
  -- the replies are decoded
  cases i with
  | false => exact ⟨_, .call hport (.call hpropose (.call (hconfirm confirmReply.record)
      (.call (hroot _) (.refl _ _))))⟩
  | true => exact ⟨_, .call hport (.call hpropose (.call (hconfirm confirmReply.record)
      (.call (hroot _) (.refl _ _))))⟩

end Nfs4Client

namespace Nfs41Client

def exchangeIdReply (clientid : UInt64) : SuccessReply :=
  ⟨[], [⟨.EXCHANGE_ID, ⟨clientid, 1, 0, (), 0, [], [], []⟩⟩]⟩

/-- The channels are as the client proposed them. -/
def createSessionReply : SuccessReply :=
  let proposed := createSessionArgs ⟨7, 1⟩
  ⟨[], [⟨.CREATE_SESSION, ⟨Octets.zero 16, 1, 0, proposed.fore, proposed.back⟩⟩]⟩

def sequenceRes (slot_seqid : UInt32) : ResOp :=
  ⟨.SEQUENCE, ⟨Octets.zero 16, slot_seqid, 0, 0, 0, 0⟩⟩

def reclaimReply : SuccessReply := ⟨[], [sequenceRes 1, ⟨.RECLAIM_COMPLETE, ()⟩]⟩

def rootReply : SuccessReply := ⟨[], [sequenceRes 2, ⟨.PUTROOTFH, ()⟩, ⟨.GETFH, [9]⟩]⟩

theorem granted_exchangeIdReply (clientid : UInt64) :
    handshake.Granted clientid 1 (exchangeIdReply clientid).record := by
  have hfits : SuccessReply.format.Fits (exchangeIdReply clientid) :=
    SuccessReply.fits_iff.mpr ⟨length_nil_lt, (by decide : 1 < 2 ^ 32),
      List.forall_mem_singleton.mpr ⟨trivial, trivial, trivial, trivial, trivial, length_nil_lt,
        length_nil_lt, (by decide : 0 < 2 ^ 32), fun _ h => absurd h List.not_mem_nil⟩⟩
  exact ⟨exchangeIdReply clientid, _, hfits, rfl, ⟨0, 0, [], by decide, rfl⟩, rfl, rfl⟩

/-- A client that is constructed and not used. -/
def idle (i : Bool) : Life Method.Result := ⟨bootTime i, none, 0, .stop⟩

/-- The client after CREATE_SESSION. -/
def inSession (i : Bool) : Nfs41Client :=
  ⟨(TcpRpcClient.connect 2049).bump.bump, ⟨[]⟩, clientidOf i, Octets.zero 16, 1, 0⟩

set_option maxRecDepth 20000 in
theorem idle_constructs (i : Bool) (t : ClientTable UInt32) (confirms : List (Bool × UInt64))
    (hissued : t.issued (clientidOf i) = none)
    (hunknown : ∀ other, (t.records owner).confirmed ≠ some (bootVerifier (bootTime i), other)) :
    ∃ tr, Trace (RegistryStep handshake i) ((idle i).construct new) ⟨t, confirms⟩ tr
      (.done (some (inSession i).sent.sent))
      ⟨t.enrol owner (bootVerifier (bootTime i)) (clientidOf i) 1,
        (i, clientidOf i) :: confirms⟩ := by
  have hport : RegistryStep handshake i ⟨t, confirms⟩ (getportRequest NFS4_PROG NFS4_VERS) portRecord
      ⟨t, confirms⟩ := .mk (.other (askHead_getport asks))
  obtain ⟨t', hpropose, hconfirm⟩ := Registry.steps_enrol i confirms
    (ask_exchangeId (bootTime i) (TcpRpcClient.connect 2049)) (granted_exchangeIdReply (clientidOf i))
    (ask_createSession ⟨clientidOf i, 1⟩ (TcpRpcClient.connect 2049).bump) hissued hunknown
  have hreclaim : ∀ s : Registry Bool UInt32, RegistryStep handshake i s
      ((inSession i).request reclaimComplete) reclaimReply.record s :=
    fun s => .mk (.other (ask_request reclaimComplete_announces length_init_lt _))
  have hroot : ∀ s : Registry Bool UInt32, RegistryStep handshake i s
      ((inSession i).sent.request getRootFh) rootReply.record s :=
    fun s => .mk (.other (ask_request getRootFh_announces length_nil_lt _))
  -- the replies are decoded
  cases i with
  | false => exact ⟨_, .call hport (.call hpropose (.call (hconfirm createSessionReply.record)
      (.call (hreclaim _) (.call (hroot _) (.refl _ _)))))⟩
  | true => exact ⟨_, .call hport (.call hpropose (.call (hconfirm createSessionReply.record)
      (.call (hreclaim _) (.call (hroot _) (.refl _ _)))))⟩

end Nfs41Client

theorem bootVerifier_bootTime_injective :
    ∀ i j, bootVerifier (bootTime i) = bootVerifier (bootTime j) → i = j := by decide

/-- The first client's constructor returns, and then the second one's. -/
theorem Registry.exists_two_runs {C T : Type} {H : Handshake T} {owner : Bytes} {token : T}
    {construct : Bool → Prog RpcRequest Received (Option C)}
    (serve : Bool → C → Prog RpcRequest Received Unit) {c : Bool → C}
    (hconstruct : ∀ (i : Bool) (t : ClientTable T) (confirms : List (Bool × UInt64)),
      t.issued (clientidOf i) = none →
      (∀ other, (t.records owner).confirmed ≠ some (bootVerifier (bootTime i), other)) →
      ∃ tr, Trace (RegistryStep H i) (construct i) ⟨t, confirms⟩ tr (.done (some (c i)))
        ⟨t.enrol owner (bootVerifier (bootTime i)) (clientidOf i) token,
          (i, clientidOf i) :: confirms⟩) :
    ∃ parties s parties' s' p,
      SharedRun (RegistryStep H) construct serve ⟨.empty, []⟩ (parties, s) ∧
      Relation.ReflTransGen (SharedStep (RegistryStep H) serve) (parties, s) (parties', s') ∧
      parties false = .returned (c false) p ∧ s.lastConfirmed = some false ∧
      parties' false = .returned (c false) p ∧ s'.lastConfirmed = some true := by
  obtain ⟨tr, htr⟩ := hconstruct false .empty [] rfl (fun _ => nofun)
  -- the second clientid is new, and the verifier that is known is not the second one
  have hissued : (ClientTable.enrol .empty owner (bootVerifier (bootTime false)) (clientidOf false)
      token).issued (clientidOf true) = none := rfl
  have hunknown : ∀ other, ((ClientTable.enrol .empty owner (bootVerifier (bootTime false))
      (clientidOf false) token).records owner).confirmed ≠
        some (bootVerifier (bootTime true), other) := by
    intro other hother
    have hpair : some (bootVerifier (bootTime false), clientidOf false) = some (_, other) :=
      (congrArg ClientRecord.confirmed (if_pos rfl)).symm.trans hother
    exact absurd (bootVerifier_bootTime_injective _ _ (congrArg Prod.fst (Option.some.inj hpair)))
      Bool.false_ne_true
  obtain ⟨tr', htr'⟩ := hconstruct true _ [(false, clientidOf false)] hissued hunknown
  have hfirst : SharedRun (RegistryStep H) construct serve ⟨.empty, []⟩ _ :=
    htr.shared_returns serve rfl
  have hwaits : Function.update (fun i => Party.constructing (construct i)) false
      (Party.returned (c false) (serve false (c false))) true = .constructing (construct true) := rfl
  have hsecond := htr'.shared_returns serve hwaits
  exact ⟨_, _, _, _, _, hfirst, hsecond, rfl, rfl, rfl, rfl⟩

/-- The first client of two, of either version, when its constructor has returned and the second one's
has not begun. -/
theorem first_client_live :
    (∃ parties s p, SharedRun (RegistryStep Nfs4Client.handshake)
        (fun i => (Nfs4Client.idle i).construct Nfs4Client.new)
        (fun i => (Nfs4Client.idle i).serve Nfs4Client.perform) ⟨.empty, []⟩ (parties, s) ∧
      parties false = .returned (Nfs4Client.constructed false) p ∧ s.table.Live 7) ∧
    (∃ parties s p, SharedRun (RegistryStep Nfs41Client.handshake)
        (fun i => (Nfs41Client.idle i).construct Nfs41Client.new)
        (fun i => (Nfs41Client.idle i).serve Nfs41Client.perform) ⟨.empty, []⟩ (parties, s) ∧
      parties false = .returned (Nfs41Client.inSession false).sent.sent p ∧ s.table.Live 7) := by
  constructor
  · obtain ⟨parties, s, -, -, p, hrun, -, hreturned, hlast, -⟩ := Registry.exists_two_runs
      (fun i => (Nfs4Client.idle i).serve Nfs4Client.perform) Nfs4Client.idle_constructs
    exact ⟨parties, s, p, hrun, hreturned, (clientid_live_iff.1 Nfs4Client.idle
      bootVerifier_bootTime_injective _ _ _ hrun false _ _ hreturned).mpr hlast⟩
  · obtain ⟨parties, s, -, -, p, hrun, -, hreturned, hlast, -⟩ := Registry.exists_two_runs
      (fun i => (Nfs41Client.idle i).serve Nfs41Client.perform) Nfs41Client.idle_constructs
    exact ⟨parties, s, p, hrun, hreturned, (clientid_live_iff.2 Nfs41Client.idle
      bootVerifier_bootTime_injective _ _ _ hrun false _ _ hreturned).mpr hlast⟩

/-- The first client is in use when the second one is constructed, and its clientid is discarded. -/
theorem second_discards_first :
    ∃ parties s parties' s' p, SharedRun (RegistryStep Nfs4Client.handshake)
        (fun i => (Nfs4Client.idle i).construct Nfs4Client.new)
        (fun i => (Nfs4Client.idle i).serve Nfs4Client.perform) ⟨.empty, []⟩ (parties, s) ∧
      Relation.ReflTransGen (SharedStep (RegistryStep Nfs4Client.handshake)
        fun i => (Nfs4Client.idle i).serve Nfs4Client.perform) (parties, s) (parties', s') ∧
      parties false = .returned (Nfs4Client.constructed false) p ∧ s.table.Live 7 ∧
      ¬ s'.table.Live 7 := by
  obtain ⟨parties, s, parties', s', p, hrun, hrun', hreturned, hlast, hreturned', hlast'⟩ :=
    Registry.exists_two_runs (fun i => (Nfs4Client.idle i).serve Nfs4Client.perform)
      Nfs4Client.idle_constructs
  have hiff : ∀ {parties} {s : Registry Bool (Octets 8)} {p}, SharedRun _ _ _ _ (parties, s) →
      parties false = .returned (Nfs4Client.constructed false) p →
      (s.table.Live 7 ↔ s.lastConfirmed = some false) := fun hrun hreturned =>
    Registry.live_of_run bootVerifier_bootTime_injective
      (fun i => (Nfs4Client.idle i).establishes (Nfs4Client.wpM_new_shared Nfs4Client.idle .empty i))
      (fun i c => Nfs4Client.serve_only (Nfs4Client.idle i) c) hrun hreturned
  -- one run is the beginning of the other
  refine ⟨parties, s, parties', s', p, hrun, hrun', hreturned, (hiff hrun hreturned).mpr hlast, ?_⟩
  intro hlive
  have hlast := (hiff (hrun.trans hrun') hreturned').mp hlive
  rw [hlast'] at hlast
  cases hlast

end NfsClient
