import NfsClient.Nfs4.Requests

/-!
# Requests are well formed

For each facade, what a method may ask of the server (`Method.Asks`) and a proof that it asks
nothing else, whatever it receives. The COMPOUND of a retry, of an OPEN_CONFIRM and of each page of
a listing is among the requests of its method; the OPEN_CONFIRM is for the handle and the stateid
of the reply just received.

The one way out is the attribute list of a `Sattr4`: one of `2 ^ 32` bytes or more has no count,
and the encoder writes the low 32 bits of its length. `requests_well_formed` says that this is all
that can go wrong.
-/

namespace NfsClient

open Xdr Reader Interaction

/-! ### Nfs4Client -/

namespace Nfs4Client

/-- `decode` ends with the result of GETFH. -/
theorem openFile_result_length {dir : Nfs4Fh} {name : Bytes} {share_access : UInt32}
    {create : Bool} {clientid : UInt64} {seqid : UInt32} {received : Received}
    {open_res : Open4Result} {fh : Nfs4Fh}
    (h : (openFile dir name share_access create clientid seqid).result received
      = .ok (open_res, fh)) : fh.data.length < 2 ^ 32 := by
  obtain ⟨reply, rest, -, h⟩ := CompoundCall.result_ok.mp h
  obtain ⟨_, _, -, h⟩ := bind_ok.mp h
  obtain ⟨_, _, -, h⟩ := bind_ok.mp h
  obtain ⟨_, _, -, h⟩ := bind_ok.mp h
  obtain ⟨fh', _, hfh, h⟩ := bind_ok.mp h
  obtain ⟨heq, -⟩ := pure_ok.mp h
  obtain ⟨-, rfl⟩ := Prod.mk.inj heq
  exact decodeGetfhResult_length hfh

/-- The OPEN, or the OPEN_CONFIRM of what the reply just received has opened. -/
def OpenAsks (c : Nfs4Client) (dir : Nfs4Fh) (name : Bytes) (share_access : UInt32)
    (create : Bool) (h : List Received) (q : RpcRequest) : Prop :=
  q.IsCompound 0
      (openEffects owner dir name share_access create c.clientid_ (c.open_seqid_ + 1)) ∨
    ∃ received open_res fh, h.getLast? = some received ∧
      (openFile dir name share_access create c.clientid_ (c.open_seqid_ + 1)).result received
        = .ok (open_res, fh) ∧
      q.IsCompound 0
        [⟨⟨.OPEN_CONFIRM, (open_res.stateid, c.open_seqid_ + 2)⟩, some fh.obj, none⟩]

namespace Method

/-- What a method invoked on `c` may ask of the server, after it has received `h`. -/
def Asks (c : Nfs4Client) (h : List Received) (q : RpcRequest) : Method → Prop
  | .file m => q.IsCompound 0 m.effects
  | .openRead dir name => OpenAsks c dir name OPEN4_SHARE_ACCESS_READ false h q
  | .openWrite dir name create => OpenAsks c dir name OPEN4_SHARE_ACCESS_WRITE create h q
  | .readdir dir => ∃ cookie cookieverf, q.IsCompound 0 (readdirEffects dir cookie cookieverf)
  | .renew => q.IsCompound 0 [⟨⟨.RENEW, c.clientid_⟩, none, none⟩]
  | .setAuthSys _ | .clearAuth => False

/-- The handles, names, texts and data of a method have fewer than `2 ^ 32` bytes each. -/
def Fits : Method → Prop
  | .file m => m.Fits
  | .openRead dir name | .openWrite dir name _ =>
    dir.data.length < 2 ^ 32 ∧ name.length < 2 ^ 32
  | .readdir dir => dir.data.length < 2 ^ 32
  | .renew | .setAuthSys _ | .clearAuth => True

/-- The attribute list of a method, if it takes one, has fewer than `2 ^ 32` bytes. -/
def AttrsFit : Method → Prop
  | .file m => m.AttrsFit
  | _ => True

end Method

/-- What the constructor may ask: a port of the portmapper, SETCLIENTID, the confirmation of the
clientid just received, and the root handle. -/
def HandshakeAsks (now : UInt64) (h : List Received) (q : RpcRequest) : Prop :=
  q = getportRequest NFS4_PROG NFS4_VERS ∨
    q.IsCompound 0 [⟨⟨.SETCLIENTID,
      (bootVerifier now, owner, 0, ascii "tcp", ascii "0.0.0.0.0.0", 0)⟩, none, none⟩] ∨
    (∃ received r, h.getLast? = some received ∧ (setclientid now).result received = .ok r ∧
      q.IsCompound 0
        [⟨⟨.SETCLIENTID_CONFIRM, (r.clientid, r.confirm_verifier)⟩, none, none⟩]) ∨
    q.IsCompound 0 [⟨⟨.GETFH, ()⟩, some .root, none⟩]

variable {c : Nfs4Client} {h : List Received}

theorem length_owner_lt : owner.length < 2 ^ 32 := by decide

theorem isCompound_file {m : FileMethod} (hm : m.Fits) (ha : m.AttrsFit) (rpc : TcpRpcClient) :
    ((fileCall m).request rpc 0).IsCompound 0 m.effects := by
  have htag : (fileCall m).tag.length < 2 ^ 32 := by cases m <;> exact length_nil_lt
  rw [← m.effects_argOps]
  exact (fileCall_announces m).isCompound htag m.length_argOps (m.fits_argOps hm ha) rpc 0

theorem isCompound_open {dir : Nfs4Fh} {name : Bytes} (hd : dir.data.length < 2 ^ 32)
    (hn : name.length < 2 ^ 32) (share_access : UInt32) (create : Bool) (clientid : UInt64)
    (seqid : UInt32) (rpc : TcpRpcClient) :
    ((openFile dir name share_access create clientid seqid).request rpc 0).IsCompound 0
      (openEffects owner dir name share_access create clientid seqid) := by
  have h := (openFile_announces dir name share_access create clientid seqid).isCompound
    length_nil_lt (by simp) (List.forall_mem_cons.mpr ⟨fits_fhOp hd, List.forall_mem_cons.mpr
      ⟨fits_openArgs length_owner_lt hn, List.forall_mem_singleton.mpr trivial⟩⟩) rpc 0
  rwa [effects, effectsFrom_fhOp] at h

theorem isCompound_confirm {fh : Nfs4Fh} (hfh : fh.data.length < 2 ^ 32) (stateid : Stateid4)
    (seqid : UInt32) (rpc : TcpRpcClient) :
    ((openConfirm fh stateid seqid).request rpc 0).IsCompound 0
      [⟨⟨.OPEN_CONFIRM, (stateid, seqid)⟩, some fh.obj, none⟩] := by
  have h := (openConfirm_announces fh stateid seqid).isCompound length_nil_lt (by simp)
    (List.forall_mem_cons.mpr ⟨fits_fhOp hfh,
      List.forall_mem_singleton.mpr ⟨fits_stateid4 _, trivial⟩⟩) rpc 0
  rwa [effects, effectsFrom_fhOp] at h

theorem isCompound_readdir {dir : Nfs4Fh} (hd : dir.data.length < 2 ^ 32) (cookie : UInt64)
    (cookieverf : Octets 8) (rpc : TcpRpcClient) :
    ((readdirPage dir cookie cookieverf).request rpc 0).IsCompound 0
      (readdirEffects dir cookie cookieverf) := by
  have h := (readdirPage_announces dir cookie cookieverf).isCompound length_nil_lt (by simp)
    (List.forall_mem_cons.mpr ⟨fits_fhOp hd,
      List.forall_mem_singleton.mpr (fits_readdirArgs cookie cookieverf)⟩) rpc 0
  rwa [effects, effectsFrom_fhOp] at h

theorem isCompound_renew (clientid : UInt64) (rpc : TcpRpcClient) :
    ((renew clientid).request rpc 0).IsCompound 0 [⟨⟨.RENEW, clientid⟩, none, none⟩] :=
  (renew_announces clientid).isCompound length_nil_lt (by simp)
    (List.forall_mem_singleton.mpr trivial) rpc 0

theorem doOpen_sends {dir : Nfs4Fh} {name : Bytes} (hd : dir.data.length < 2 ^ 32)
    (hn : name.length < 2 ^ 32) (fuel : ℕ) (share_access : UInt32) (create : Bool) :
    (doOpen fuel dir name share_access create c).Sends
      (OpenAsks c dir name share_access create) h := by
  -- the loop changes no field but the connection, and its reply is the last one received
  refine ClientM.sends_iff.mpr (wpM_doOpen_exits
    (I := fun c' _ => c'.open_seqid_ = c.open_seqid_ + 1) rfl ?_ ?_ ?_ rfl)
  · exact fun c' h' _ => Or.inl (isCompound_open hd hn _ _ _ _ c'.rpc_)
  · exact fun _ _ _ _ hI _ _ => hI
  · intro c' h' r h'' hI hstep _
    refine ⟨fun _ => trivial, fun open_res fh hresult => ?_⟩
    split
    · refine ⟨Or.inr ⟨r, open_res, fh, ?_, hresult, ?_⟩, fun _ _ _ => trivial⟩
      · rw [hstep, List.getLast?_concat]
      · have hseqid : c'.sent.open_seqid_ + 1 = c.open_seqid_ + 2 := by
          change c'.open_seqid_ + 1 = _
          rw [hI, add_assoc]
          rfl
        rw [hseqid]
        exact isCompound_confirm (openFile_result_length hresult) _ _ _
    · exact trivial

/-- Every request of a method is what the method may ask, if its attribute list has a count. -/
theorem perform_sends {m : Method} (hm : m.Fits) (ha : m.AttrsFit) (fuel : ℕ) :
    (perform fuel m c).Sends (fun h q => m.Asks c h q) h := by
  cases m with
  | file m =>
    refine ClientM.sends_iff.mpr (wpM_onRpc_send.mpr ⟨?_, fun _ _ _ => trivial⟩)
    exact isCompound_file hm ha c.rpc_
  | openRead dir name => exact doOpen_sends hm.1 hm.2 fuel _ _
  | openWrite dir name create => exact doOpen_sends hm.1 hm.2 fuel _ _
  | readdir dir =>
    refine ClientM.sends_iff.mpr (wpM_readdirLoop (I := fun _ _ => True) ?_ ?_ trivial)
    · exact fun c' h' cookie cookieverf _ =>
        ⟨⟨cookie, cookieverf, isCompound_readdir hm cookie cookieverf c'.rpc_⟩, fun _ _ _ => trivial⟩
    · exact fun _ _ _ _ => trivial
  | renew =>
    refine ClientM.sends_iff.mpr (wpM_fields_bind.mpr (wpM_onRpc_send.mpr ⟨?_, fun _ _ _ => trivial⟩))
    exact isCompound_renew c.clientid_ c.rpc_
  | setAuthSys auth => exact trivial
  | clearAuth => exact trivial

/-- A method whose attribute list has no count sends something else. -/
theorem attrsFit_of_sends {m : Method} {fuel : ℕ}
    (hs : (perform fuel m c).Sends (fun h q => m.Asks c h q) h) : m.AttrsFit := by
  cases m with
  | file m =>
    obtain ⟨hask, -⟩ := wpM_onRpc_send.mp (ClientM.sends_iff.mp hs)
    exact FileMethod.attrsFit_of_effects (RpcRequest.IsCompound.args hask).fits
  | _ => exact trivial

theorem new_sends (now : UInt64) (auth : Option AuthSys) :
    (new now auth ()).Sends (HandshakeAsks now) [] := by
  have hnetid : (ascii "tcp").length < 2 ^ 32 := by decide
  have haddr : (ascii "0.0.0.0.0.0").length < 2 ^ 32 := by decide
  refine ClientM.sends_iff.mpr (wpM_connectNfs_bind (Or.inl rfl) fun r h hstep =>
    ⟨fun _ => trivial, fun rpc => ?_⟩)
  refine wpM_bind.mpr (wpM_onLocal.mpr (wpM_doSetclientidConfirm.mpr ⟨Or.inr (Or.inl ?_), ?_⟩))
  · exact (setclientid_announces now).isCompound length_init_lt (by simp)
      (List.forall_mem_singleton.mpr
        ⟨trivial, length_owner_lt, trivial, hnetid, haddr, trivial⟩) rpc 0
  · intro r₁ h₁ hstep₁
    -- each next request is sent only if the result before it could be decoded
    cases hr₁ : (setclientid now).result r₁ with
    | error e => exact trivial
    | ok res =>
      refine ⟨Or.inr (Or.inr (Or.inl ⟨r₁, res, ?_, hr₁, ?_⟩)), ?_⟩
      · rw [hstep₁, List.getLast?_concat]
      · exact (setclientidConfirm_announces res).isCompound length_init_lt (by simp)
          (List.forall_mem_singleton.mpr ⟨trivial, trivial⟩) _ 0
      · intro r₂ h₂ hstep₂
        cases (setclientidConfirm res).result r₂ with
        | error e => exact trivial
        | ok u =>
          refine wpM_bind.mpr (wpM_onLocal.mpr (wpM_doGetRootFh.mpr
            ⟨Or.inr (Or.inr (Or.inr ?_)), ?_⟩))
          · exact getRootFh_announces.isCompound length_nil_lt (by simp)
              (List.forall_mem_cons.mpr ⟨trivial, List.forall_mem_singleton.mpr trivial⟩) _ 0
          · intro r₃ h₃ hstep₃
            cases getRootFh.result r₃ <;> exact trivial

end Nfs4Client

/-! ### Nfs41Client -/

namespace Nfs41Client

/-- A COMPOUND in the session: a SEQUENCE, then the effects. -/
def InSession (sessionid : SessionId41) (q : RpcRequest) (es : List Effect) : Prop :=
  ∃ slot_seqid, q.IsCompound 1 (⟨sequenceOp sessionid slot_seqid, none, none⟩ :: es)

namespace Method

/-- What a method invoked on `c` may ask of the server. -/
def Asks (c : Nfs41Client) (q : RpcRequest) : Method → Prop
  | .file m => InSession c.sessionid_ q m.effects
  | .openRead dir name => InSession c.sessionid_ q
    (openEffects owner dir name OPEN4_SHARE_ACCESS_READ false c.clientid_ (c.open_seqid_ + 1))
  | .openWrite dir name create => InSession c.sessionid_ q
    (openEffects owner dir name OPEN4_SHARE_ACCESS_WRITE create c.clientid_ (c.open_seqid_ + 1))
  | .readdir dir =>
    ∃ cookie cookieverf, InSession c.sessionid_ q (readdirEffects dir cookie cookieverf)
  | .setAuthSys _ | .clearAuth => False

/-- The handles, names, texts and data of a method have fewer than `2 ^ 32` bytes each. -/
def Fits : Method → Prop
  | .file m => m.Fits
  | .openRead dir name | .openWrite dir name _ =>
    dir.data.length < 2 ^ 32 ∧ name.length < 2 ^ 32
  | .readdir dir => dir.data.length < 2 ^ 32
  | .setAuthSys _ | .clearAuth => True

/-- The attribute list of a method, if it takes one, has fewer than `2 ^ 32` bytes. -/
def AttrsFit : Method → Prop
  | .file m => m.AttrsFit
  | _ => True

end Method

/-- What the constructor may ask: a port of the portmapper, EXCHANGE_ID, a session for the
clientid and sequence just received, and in the session RECLAIM_COMPLETE and the root handle. -/
def HandshakeAsks (now : UInt64) (h : List Received) (q : RpcRequest) : Prop :=
  q = getportRequest NFS4_PROG NFS4_VERS ∨
    q.IsCompound 1
      [⟨⟨.EXCHANGE_ID, (bootVerifier now, owner, 0x00020000, (), [])⟩, none, none⟩] ∨
    (∃ received exid, h.getLast? = some received ∧ (exchangeId now).result received = .ok exid ∧
      q.IsCompound 1 [⟨⟨.CREATE_SESSION, createSessionArgs exid⟩, none, none⟩]) ∨
    (∃ sessionid, InSession sessionid q [⟨⟨.RECLAIM_COMPLETE, false⟩, none, none⟩]) ∨
    ∃ sessionid, InSession sessionid q [⟨⟨.GETFH, ()⟩, some .root, none⟩]

variable {c : Nfs41Client} {h : List Received}

theorem length_owner_lt : owner.length < 2 ^ 32 := by decide

/-- The request of an announced call with bounded operations. -/
theorem isCompound_request {α : Type} {q : CompoundCall α} {ops : List ArgOp}
    (hq : q.Announces ops) (htag : q.tag.length < 2 ^ 32) (hlen : ops.length + 1 < 2 ^ 32)
    (hops : ∀ op ∈ ops, ArgOp.format.Fits op) (c : Nfs41Client) :
    InSession c.sessionid_ (c.request q) (effects ops) := by
  refine ⟨c.slot_seqid_, rfl, rfl, rfl, ?_⟩
  change CarriesOut 1
    (compoundArgs q.tag (sequencedOps c.sessionid_ c.slot_seqid_ q.ops) (q.numOps + 1) 1) _
  rw [sequenced_compoundArgs hq]
  exact carriesOut_write htag hlen
    (List.forall_mem_cons.mpr ⟨⟨trivial, trivial, trivial, trivial, trivial⟩, hops⟩)

theorem isCompound_file {m : FileMethod} (hm : m.Fits) (ha : m.AttrsFit) (c : Nfs41Client) :
    InSession c.sessionid_ (c.request (fileCall m)) m.effects := by
  have htag : (fileCall m).tag.length < 2 ^ 32 := by cases m <;> exact length_nil_lt
  have hlen : m.argOps.length + 1 < 2 ^ 32 := by cases m <;> simp [FileMethod.argOps]
  rw [← m.effects_argOps]
  exact isCompound_request (fileCall_announces m) htag hlen (m.fits_argOps hm ha) c

theorem isCompound_open {dir : Nfs4Fh} {name : Bytes} (hd : dir.data.length < 2 ^ 32)
    (hn : name.length < 2 ^ 32) (share_access : UInt32) (create : Bool) (clientid : UInt64)
    (seqid : UInt32) (c : Nfs41Client) :
    InSession c.sessionid_ (c.request (openFile dir name share_access create clientid seqid))
      (openEffects owner dir name share_access create clientid seqid) := by
  have h := isCompound_request (openFile_announces dir name share_access create clientid seqid)
    length_nil_lt (by simp) (List.forall_mem_cons.mpr ⟨fits_fhOp hd, List.forall_mem_cons.mpr
      ⟨fits_openArgs length_owner_lt hn, List.forall_mem_singleton.mpr trivial⟩⟩) c
  rwa [effects, effectsFrom_fhOp] at h

theorem isCompound_readdir {dir : Nfs4Fh} (hd : dir.data.length < 2 ^ 32) (cookie : UInt64)
    (cookieverf : Octets 8) (c : Nfs41Client) :
    InSession c.sessionid_ (c.request (readdirPage dir cookie cookieverf))
      (readdirEffects dir cookie cookieverf) := by
  have h := isCompound_request (readdirPage_announces dir cookie cookieverf) length_nil_lt (by simp)
    (List.forall_mem_cons.mpr ⟨fits_fhOp hd,
      List.forall_mem_singleton.mpr (fits_readdirArgs cookie cookieverf)⟩) c
  rwa [effects, effectsFrom_fhOp] at h

theorem doOpen_sends {dir : Nfs4Fh} {name : Bytes} (hd : dir.data.length < 2 ^ 32)
    (hn : name.length < 2 ^ 32) (fuel : ℕ) (share_access : UInt32) (create : Bool) :
    (doOpen fuel dir name share_access create c).Sends (fun _ q => InSession c.sessionid_ q
      (openEffects owner dir name share_access create c.clientid_ (c.open_seqid_ + 1))) h := by
  refine ClientM.sends_iff.mpr (wpM_doOpen_exits
    (I := fun c' _ => c'.sessionid_ = c.sessionid_) rfl ?_ ?_ ?_ rfl)
  · intro c' h' hI
    rw [← hI]
    exact isCompound_open hd hn _ _ _ _ c'
  · exact fun _ _ _ _ hI _ _ => hI
  · exact fun _ _ _ _ _ _ _ => ⟨fun _ => trivial, fun _ _ _ _ => trivial⟩

/-- Every request of a method is what the method may ask, if its attribute list has a count. -/
theorem perform_sends {m : Method} (hm : m.Fits) (ha : m.AttrsFit) (fuel : ℕ) :
    (perform fuel m c).Sends (fun _ q => m.Asks c q) h := by
  cases m with
  | file m =>
    exact ClientM.sends_iff.mpr (wpM_call.mpr ⟨isCompound_file hm ha c, fun _ _ _ => trivial⟩)
  | openRead dir name => exact doOpen_sends hm.1 hm.2 fuel _ _
  | openWrite dir name create => exact doOpen_sends hm.1 hm.2 fuel _ _
  | readdir dir =>
    refine ClientM.sends_iff.mpr
      (wpM_readdirLoop (I := fun c' _ => c'.sessionid_ = c.sessionid_) ?_ ?_ rfl)
    · intro c' h' cookie cookieverf hI
      refine ⟨⟨cookie, cookieverf, ?_⟩, fun _ _ _ => hI⟩
      rw [← hI]
      exact isCompound_readdir hm cookie cookieverf c'
    · exact fun _ _ _ _ => trivial
  | setAuthSys auth => exact trivial
  | clearAuth => exact trivial

/-- A method whose attribute list has no count sends something else. -/
theorem attrsFit_of_sends {m : Method} {fuel : ℕ}
    (hs : (perform fuel m c).Sends (fun _ q => m.Asks c q) h) : m.AttrsFit := by
  cases m with
  | file m =>
    obtain ⟨⟨slot_seqid, hask⟩, -⟩ := wpM_call.mp (ClientM.sends_iff.mp hs)
    exact FileMethod.attrsFit_of_effects fun e he =>
      hask.args.fits e (List.mem_cons_of_mem _ he)
  | _ => exact trivial

theorem fits_createSessionArgs (exid : ExchangeIdResult) :
    ArgOp.format.Fits ⟨.CREATE_SESSION, createSessionArgs exid⟩ := by
  have hnil : (Format.array Format.word).Fits [] :=
    ⟨by decide, fun _ h => absurd h List.not_mem_nil⟩
  have hsec : (Format.array (Format.literal 0)).Fits [()] :=
    ⟨by decide, fun _ _ => trivial⟩
  have hchannel : ∀ maxrqst maxresp maxresp_cached : UInt32,
      Wire.channelAttrs.Fits (0, maxrqst, maxresp, maxresp_cached, 16, 1, []) :=
    fun _ _ _ => ⟨trivial, trivial, trivial, trivial, trivial, trivial, hnil⟩
  exact ⟨trivial, trivial, trivial, hchannel _ _ _, hchannel _ _ _, trivial, hsec⟩

theorem new_sends (now : UInt64) (auth : Option AuthSys) :
    (new now auth ()).Sends (HandshakeAsks now) [] := by
  have himpl : (Format.array Wire.implId).Fits [] :=
    ⟨by decide, fun _ h => absurd h List.not_mem_nil⟩
  refine ClientM.sends_iff.mpr (wpM_connectNfs_bind (Or.inl rfl) fun r h hstep =>
    ⟨fun _ => trivial, fun rpc => ?_⟩)
  refine wpM_bind.mpr (wpM_onLocal.mpr (wpM_doBootstrap.mpr ⟨Or.inr (Or.inl ?_), ?_⟩))
  · exact (exchangeId_announces now).isCompound length_init_lt (by simp)
      (List.forall_mem_singleton.mpr
        ⟨trivial, length_owner_lt, trivial, trivial, himpl⟩) rpc 1
  · intro r₁ h₁ hstep₁
    cases hr₁ : (exchangeId now).result r₁ with
    | error e => exact trivial
    | ok exid =>
      refine ⟨Or.inr (Or.inr (Or.inl ⟨r₁, exid, ?_, hr₁, ?_⟩)), ?_⟩
      · rw [hstep₁, List.getLast?_concat]
      · exact (createSession_announces exid).isCompound length_init_lt (by simp)
          (List.forall_mem_singleton.mpr (fits_createSessionArgs exid)) _ 1
      · intro r₂ h₂ hstep₂
        cases (createSession exid).result r₂ with
        | error e => exact trivial
        | ok sid =>
          refine wpM_bind.mpr (wpM_onLocal.mpr (wpM_enterSession.mpr
            ⟨Or.inr (Or.inr (Or.inr (Or.inl ⟨sid, ?_⟩))), ?_⟩))
          · exact isCompound_request reclaimComplete_announces length_init_lt (by simp)
              (List.forall_mem_singleton.mpr trivial) _
          · intro r₃ h₃ hstep₃
            cases reclaimComplete.result r₃ with
            | error e => exact trivial
            | ok u =>
              refine ⟨Or.inr (Or.inr (Or.inr (Or.inr ⟨sid, ?_⟩))), ?_⟩
              · exact isCompound_request getRootFh_announces length_nil_lt (by simp)
                  (List.forall_mem_cons.mpr ⟨trivial, List.forall_mem_singleton.mpr trivial⟩) _
              · intro r₄ h₄ hstep₄
                cases getRootFh.result r₄ <;> exact trivial

end Nfs41Client

/-! ### Both facades -/

/-- **Well-formed COMPOUNDs.** The constructors of both facades, and every method whose handles,
names, texts and data are of bounded length, send nothing but well-formed COMPOUNDs with the
caller's arguments on the caller's handles; a method that takes attributes does so exactly if its
attribute list is of bounded length too. -/
theorem requests_well_formed (now : UInt64) (auth : Option AuthSys) (fuel : ℕ)
    (m : Nfs4Client.Method) (c : Nfs4Client) (m₁ : Nfs41Client.Method) (c₁ : Nfs41Client) :
    (Nfs4Client.new now auth ()).Sends (Nfs4Client.HandshakeAsks now) [] ∧
    (Nfs41Client.new now auth ()).Sends (Nfs41Client.HandshakeAsks now) [] ∧
    (m.Fits →
      ((Nfs4Client.perform fuel m c).Sends (fun h q => m.Asks c h q) [] ↔ m.AttrsFit)) ∧
    (m₁.Fits →
      ((Nfs41Client.perform fuel m₁ c₁).Sends (fun _ q => m₁.Asks c₁ q) [] ↔ m₁.AttrsFit)) :=
  ⟨Nfs4Client.new_sends now auth, Nfs41Client.new_sends now auth,
    fun hm => ⟨Nfs4Client.attrsFit_of_sends, fun ha => Nfs4Client.perform_sends hm ha fuel⟩,
    fun hm => ⟨Nfs41Client.attrsFit_of_sends, fun ha => Nfs41Client.perform_sends hm ha fuel⟩⟩

/-- RENAME from the root to a directory with a handle of its own. -/
theorem rename_well_formed :
    (Nfs4Client.perform 0 (.file (.rename ⟨[]⟩ [97] ⟨[1, 2, 3]⟩ [98])) Nfs4Client.fresh).Sends
      (fun _ q => q.IsCompound 0
        [⟨⟨.RENAME, ([97], [98])⟩, some (.handle [1, 2, 3]), some .root⟩]) [] :=
  ((requests_well_formed 0 none 0 (.file (.rename ⟨[]⟩ [97] ⟨[1, 2, 3]⟩ [98])) Nfs4Client.fresh
    (.file (.getattr ⟨[]⟩)) Nfs41Client.fresh).2.2.1
      ⟨⟨by decide, by decide⟩, by decide, by decide⟩).mpr trivial

/-! ### An attribute list that is too long -/

/-- The attribute list of an owner alone: its count, its bytes and their padding. -/
theorem length_attrlist_owner (owner : Bytes) :
    (Sattr4.attrlist { owner := some owner }).length = 4 + (owner.length + padLen owner.length) := by
  simp only [Sattr4.attrlist, ifPresent, putString_eq, List.nil_append, List.append_nil]
  exact length_varOpaque owner

/-- SETATTR of an owner of `2 ^ 32 - 4` bytes on the root. Every single argument has a count; the
attribute list, four bytes longer than the owner, has none. -/
theorem long_owner_not_well_formed :
    ¬ ∀ (m : Nfs4Client.Method) (fuel : ℕ) (c : Nfs4Client), m.Fits →
      (∀ fh attrs owner, m = .file (.setattr fh attrs) → attrs.owner = some owner →
        owner.length < 2 ^ 32) →
      (Nfs4Client.perform fuel m c).Sends (fun h q => m.Asks c h q) [] := by
  intro hclaim
  obtain ⟨owner, howner⟩ : ∃ owner : Bytes, owner.length = 2 ^ 32 - 4 :=
    ⟨List.replicate (2 ^ 32 - 4) 97, List.length_replicate⟩
  have hsends := hclaim (.file (.setattr ⟨[]⟩ { owner := some owner })) 0 Nfs4Client.fresh
    length_nil_lt (by
      intro fh attrs owner' hm ho
      cases hm
      cases ho
      omega)
  -- the count of the attribute list is part of what was asked
  have hfit : (Sattr4.attrlist { owner := some owner }).length < 2 ^ 32 :=
    Nfs4Client.attrsFit_of_sends hsends
  rw [length_attrlist_owner, howner] at hfit
  norm_num [padLen] at hfit

end NfsClient
