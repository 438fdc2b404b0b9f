import NfsClient.Framing.Messages

/-!
# The request size of the session

In CREATE_SESSION the client proposes `ca_maxrequestsize` and `ca_maxoperations` for the fore channel,
and a server may only lower them. No method compares what it is about to send with either of them: a
handle, a name, data or attributes go into one COMPOUND as they are, behind whatever credential is set.

`Method.requestSize` is the size of that COMPOUND for each method, in the lengths of its arguments. The
requests of a method are within the limits exactly if it is (`session_requests_fit_iff`).
-/

namespace NfsClient

open Xdr Reader Interaction

/-! ### Requests in the session -/

namespace Nfs41Client

/-- The fore channel that the client proposes. -/
def foreChannel : ChannelAttrs := (0, 65536, 65536, 1024, 16, 1, [])

theorem createSessionArgs_fore (exid : ExchangeIdResult) :
    (createSessionArgs exid).fore = foreChannel := rfl

/-- `ca_maxrequestsize`. -/
def maxRequestSize : ℕ := foreChannel.2.1.toNat

/-- `ca_maxoperations`. -/
def maxOperations : ℕ := foreChannel.2.2.2.2.1.toNat

/-- The CALL, without its record mark, and the operations of its COMPOUND are within the limits. -/
structure WithinLimits (q : RpcRequest) : Prop where
  size : q.message.length ≤ maxRequestSize
  operations : ∃ compound, Compound.format.read q.args = .ok (compound, []) ∧
    compound.ops.length ≤ maxOperations

/-- The size of a CALL in the session: header, COMPOUND, and SEQUENCE before the operations. -/
def sequencedSize (auth : Option AuthSys) (tag : Bytes) (opsSize : ℕ) : ℕ :=
  headerSize auth + compoundSize tag (36 + opsSize)

theorem withinLimits_iff {α : Type} {q : CompoundCall α} {ops : List ArgOp} (hq : q.Announces ops)
    (hops : ops.length ≤ 4) (c : Nfs41Client) :
    WithinLimits (c.request q) ↔
      sequencedSize c.rpc_.auth_sys_ q.tag (ops.map ArgOp.size).sum ≤ maxRequestSize := by
  have hlen : (c.request q).message.length =
      sequencedSize c.rpc_.auth_sys_ q.tag (ops.map ArgOp.size).sum :=
    (Message.sequenced c q ops hq).length_message
  constructor
  · intro h
    rw [← hlen]
    exact h.size
  · intro h
    rw [← hlen] at h
    -- the limit is far below what a length field can hold
    have hlt : (c.request q).args.length < 2 ^ 32 := by
      rw [RpcRequest.length_message] at h
      have hmax : maxRequestSize < 2 ^ 32 := by decide
      omega
    have hargs : (c.request q).args = Compound.format.write
        ⟨q.tag, 1, sequenceOp c.sessionid_ c.slot_seqid_ :: ops⟩ := sequenced_compoundArgs hq _ _
    rw [hargs, Compound.measured.length_write] at hlt
    refine ⟨h, ⟨q.tag, 1, sequenceOp c.sessionid_ c.slot_seqid_ :: ops⟩, ?_, ?_⟩
    · rw [hargs]
      exact (Compound.measured.reads hlt).run
    · exact le_trans (Nat.succ_le_succ hops) (by decide)

/-- The size of the operations of a method. Those of `do_open` and of a page have the same size for
every seqid and every cookie. -/
def Method.opsSize : Method → ℕ
  | .file m => m.opsSize
  | .openRead dir name | .openWrite dir name false => fhOpSize dir + (52 + opaqueSize name.length) + 4
  | .openWrite dir name true => fhOpSize dir + (64 + opaqueSize name.length) + 4
  | .readdir dir => fhOpSize dir + 40
  | .setAuthSys _ | .clearAuth => 0

/-- The size of each request of a method; the two that change the credential send none. -/
def Method.requestSize (auth : Option AuthSys) : Method → ℕ
  | .setAuthSys _ | .clearAuth => 0
  | m => sequencedSize auth [] m.opsSize

theorem sum_size_openOps (dir : Nfs4Fh) (name : Bytes) (share_access : UInt32) (create : Bool)
    (clientid : UInt64) (seqid : UInt32) :
    ([fhOp dir, ⟨.OPEN, openArgs owner name share_access create clientid seqid⟩,
      ⟨.GETFH, ()⟩].map ArgOp.size).sum =
      fhOpSize dir + ((if create then 64 else 52) + opaqueSize name.length) + 4 := by
  have howner : opaqueSize owner.length = 20 := by decide
  have hattrs : fattrSize (Sattr4.wire {}) = 8 := by decide
  cases create <;>
    simp only [List.map_cons, List.map_nil, List.sum_cons, List.sum_nil, size_fhOp, ArgOp.size_mk,
      Op.argSize, openArgs, openTypeSize, OpenType.armSize, createModeSize, CreateMode.armSize,
      claimSize, ClaimType.armSize, howner, hattrs, if_true, Bool.false_eq_true, if_false] <;>
    omega

theorem sum_size_readdirOps (dir : Nfs4Fh) (cookie : UInt64) (cookieverf : Octets 8) :
    ([fhOp dir, ⟨.READDIR, (cookie, cookieverf, 4096, 32768, makeBitmap4 readdirIds)⟩].map
      ArgOp.size).sum = fhOpSize dir + 40 := by
  have hids : (makeBitmap4 readdirIds).length = 2 := by decide +kernel
  simp only [List.map_cons, List.map_nil, List.sum_cons, List.sum_nil, size_fhOp, ArgOp.size_mk,
    Op.argSize, hids]
  omega

variable {c : Nfs41Client} {h : List Received}

/-- Every try of an OPEN has the size of the first. -/
theorem doOpen_sends_iff (fuel : ℕ) (dir : Nfs4Fh) (name : Bytes) (share_access : UInt32)
    (create : Bool) :
    (doOpen (fuel + 1) dir name share_access create c).Sends (fun _ q => WithinLimits q) h ↔
      sequencedSize c.rpc_.auth_sys_ []
        (fhOpSize dir + ((if create then 64 else 52) + opaqueSize name.length) + 4) ≤
          maxRequestSize := by
  have hq := openFile_announces dir name share_access create c.clientid_ (c.open_seqid_ + 1)
  have hwithin := withinLimits_iff hq (by simp)
  rw [sum_size_openOps] at hwithin
  rw [ClientM.sends_iff]
  constructor
  · intro hs
    exact (hwithin c.opened).mp (wpM_openLoop_succ.mp (wpM_doOpen.mp hs)).1
  · intro hsize
    -- no try changes the credential
    refine wpM_doOpen_exits (I := fun c' _ => c'.rpc_.auth_sys_ = c.rpc_.auth_sys_) rfl ?_ ?_ ?_ rfl
    · intro c' _ hauth
      refine (hwithin c').mpr ?_
      rwa [hauth]
    · exact fun _ _ _ _ hauth _ _ => hauth
    · exact fun _ _ _ _ _ _ _ => ⟨fun _ => trivial, fun _ _ _ _ => trivial⟩

/-- Every page of a listing is asked for in the same size. -/
theorem readdir_sends_iff (fuel : ℕ) (dir : Nfs4Fh) :
    (readdir (fuel + 1) dir c).Sends (fun _ q => WithinLimits q) h ↔
      sequencedSize c.rpc_.auth_sys_ [] (fhOpSize dir + 40) ≤ maxRequestSize := by
  have hwithin : ∀ (cookie : UInt64) (cookieverf : Octets 8) (c' : Nfs41Client),
      WithinLimits (c'.request (readdirPage dir cookie cookieverf)) ↔
        sequencedSize c'.rpc_.auth_sys_ [] (fhOpSize dir + 40) ≤ maxRequestSize := by
    intro cookie cookieverf c'
    rw [withinLimits_iff (readdirPage_announces dir cookie cookieverf) (by simp),
      sum_size_readdirOps]
    exact Iff.rfl
  rw [ClientM.sends_iff]
  constructor
  · intro hs
    exact (hwithin 0 (Octets.zero 8) c).mp (wpM_call.mp (wpM_bind.mp hs)).1
  · intro hsize
    refine wpM_readdirLoop (I := fun c' _ => c'.rpc_.auth_sys_ = c.rpc_.auth_sys_) ?_
      (fun _ _ _ _ => trivial) rfl
    intro c' h' cookie cookieverf hauth
    refine ⟨(hwithin cookie cookieverf c').mpr ?_, fun _ _ _ => hauth⟩
    rwa [hauth]

/-- The requests of a method are within the limits exactly if its request size is. -/
theorem perform_sends_iff (fuel : ℕ) (m : Method) :
    (perform (fuel + 1) m c).Sends (fun _ q => WithinLimits q) h ↔
      m.requestSize c.rpc_.auth_sys_ ≤ maxRequestSize := by
  cases m with
  | file m =>
    have hops : m.argOps.length ≤ 4 := by cases m <;> simp [FileMethod.argOps]
    have hwithin := withinLimits_iff (fileCall_announces m) hops c
    rw [FileMethod.sum_size_argOps, tag_fileCall] at hwithin
    rw [ClientM.sends_iff]
    exact wpM_call.trans ⟨fun hs => hwithin.mp hs.1, fun hs => ⟨hwithin.mpr hs, fun _ _ _ => trivial⟩⟩
  | openRead dir name => exact doOpen_sends_iff fuel dir name _ false
  | openWrite dir name create => cases create <;> exact doOpen_sends_iff fuel dir name _ _
  | readdir dir => exact readdir_sends_iff fuel dir
  | setAuthSys auth => exact ⟨fun _ => Nat.zero_le _, fun _ => trivial⟩
  | clearAuth => exact ⟨fun _ => Nat.zero_le _, fun _ => trivial⟩

/-! ### The constructor -/

/-- The size of the first request in the session, RECLAIM_COMPLETE; the second is smaller. -/
def handshakeSize (auth : Option AuthSys) : ℕ := sequencedSize auth (ascii "init") 8

theorem withinLimits_reclaimComplete (c : Nfs41Client) :
    WithinLimits (c.request reclaimComplete) ↔
      handshakeSize c.rpc_.auth_sys_ ≤ maxRequestSize :=
  withinLimits_iff reclaimComplete_announces (by simp) c

theorem withinLimits_getRootFh {c : Nfs41Client}
    (hsize : handshakeSize c.rpc_.auth_sys_ ≤ maxRequestSize) :
    WithinLimits (c.request getRootFh) := by
  refine (withinLimits_iff getRootFh_announces (by simp) c).mpr (le_trans ?_ hsize)
  have htag : opaqueSize (ascii "init").length = 8 := by decide
  have hops : ([⟨.PUTROOTFH, ()⟩, ⟨.GETFH, ()⟩].map ArgOp.size).sum = 8 := rfl
  unfold handshakeSize sequencedSize compoundSize
  rw [htag, hops]
  change _ + (4 + _) ≤ _
  omega

/-- Three answers bring the constructor into the session. -/
theorem new_sends_of (now : UInt64) {auth : Option AuthSys}
    (hsize : handshakeSize auth ≤ maxRequestSize) :
    (new now auth ()).Sends (fun h q => 3 ≤ h.length → WithinLimits q) [] := by
  refine ClientM.sends_iff.mpr (wpM_bind.mpr (wpM_connectNfs (fun hlen => nomatch hlen)
    fun r₀ h₀ hstep₀ => ⟨fun _ => trivial, fun rpc hauth => ?_⟩))
  subst hauth hstep₀
  -- nothing is claimed of what is sent before the session exists
  refine wpM_bind.mpr (wpM_onLocal.mpr (wpM_doBootstrap.mpr ⟨fun hlen => ?_, fun r₁ h₁ hstep₁ => ?_⟩))
  · exact absurd hlen (by simp)
  subst hstep₁
  cases (exchangeId now).result r₁ with
  | error e => exact trivial
  | ok exid =>
    refine ⟨fun hlen => absurd hlen (by simp), fun r₂ h₂ hstep₂ => ?_⟩
    cases (createSession exid).result r₂ with
    | error e => exact trivial
    | ok sid =>
      refine wpM_bind.mpr (wpM_onLocal.mpr (wpM_enterSession.mpr
        ⟨fun _ => (withinLimits_reclaimComplete _).mpr hsize, fun r₃ h₃ _ => ?_⟩))
      cases reclaimComplete.result r₃ with
      | error e => exact trivial
      | ok _ =>
        refine ⟨fun _ => withinLimits_getRootFh hsize, fun r₄ h₄ _ => ?_⟩
        cases getRootFh.result r₄ <;> exact trivial

/-- A server can accept the client. -/
theorem exists_exchangeId (now : UInt64) : ∃ r exid, (exchangeId now).result r = .ok exid := by
  let reply : SuccessReply := ⟨[], [⟨.EXCHANGE_ID, ⟨1, 1, 0, (), 0, [], [], []⟩⟩]⟩
  have hfits : SuccessReply.format.Fits reply :=
    SuccessReply.fits_iff.mpr ⟨by decide, by decide, List.forall_mem_singleton.mpr
      ⟨trivial, trivial, trivial, trivial, trivial, length_nil_lt, length_nil_lt, by decide,
        fun _ h => absurd h List.not_mem_nil⟩⟩
  exact ⟨_, _, exchangeId_result hfits rfl ⟨0, 0, [], by decide, rfl⟩⟩

/-- A server can grant the session. -/
theorem exists_createSession (exid : ExchangeIdResult) :
    ∃ r sid, (createSession exid).result r = .ok sid := by
  let reply : SuccessReply :=
    ⟨[], [⟨.CREATE_SESSION, ⟨Octets.zero 16, 1, 0, foreChannel, foreChannel⟩⟩]⟩
  have hchannel : Wire.channelAttrs.Fits foreChannel :=
    ⟨trivial, trivial, trivial, trivial, trivial, trivial, by decide, fun _ _ => trivial⟩
  have hfits : SuccessReply.format.Fits reply :=
    SuccessReply.fits_iff.mpr ⟨by decide, by decide, List.forall_mem_singleton.mpr
      ⟨trivial, trivial, trivial, hchannel, hchannel⟩⟩
  exact ⟨_, _, createSession_result hfits rfl ⟨0, 0, [], by decide, rfl⟩⟩

/-- With a session granted, RECLAIM_COMPLETE is sent whatever its size is. -/
theorem handshakeSize_le_of_new_sends {now : UInt64} {auth : Option AuthSys}
    (hs : (new now auth ()).Sends (fun h q => 3 ≤ h.length → WithinLimits q) []) :
    handshakeSize auth ≤ maxRequestSize := by
  obtain ⟨r₁, exid, hr₁⟩ := exists_exchangeId now
  obtain ⟨r₂, sid, hr₂⟩ := exists_createSession exid
  have hnew := ClientM.sends_iff.mp hs
  unfold new connectNfs at hnew
  rw [wpM_bind, wpM_bind] at hnew
  have hboot := port_of_wpM_getport (r := .ok (acceptedHeader 0 0 [] ++ word 2049)) hnew rfl
    (parseReply_accepted 0 0 length_nil_lt (word 2049)) (getUint32_reads 2049).run (by decide)
  simp only [wpM_pure] at hboot
  rw [wpM_bind, wpM_onLocal, wpM_doBootstrap] at hboot
  have hcreate := hboot.2 r₁ _ rfl
  rw [hr₁] at hcreate
  have henter := hcreate.2 r₂ _ rfl
  rw [hr₂] at henter
  simp only [Except.map] at henter
  rw [wpM_bind, wpM_onLocal, wpM_enterSession] at henter
  have hsize := (withinLimits_reclaimComplete _).mp (henter.1 (by simp))
  cases auth <;> exact hsize

theorem new_sends_iff (now : UInt64) (auth : Option AuthSys) :
    (new now auth ()).Sends (fun h q => 3 ≤ h.length → WithinLimits q) [] ↔
      handshakeSize auth ≤ maxRequestSize :=
  ⟨handshakeSize_le_of_new_sends, new_sends_of now⟩

/-! ### The limits -/

/-- **The request size of the session.** The client proposes the limits, and sends a request inside
the session whatever its size is: the constructor, from its third answer on, is within them exactly if
its credential leaves room for RECLAIM_COMPLETE, and a method exactly if its request size is. -/
theorem session_requests_fit_iff (exid : ExchangeIdResult) (now : UInt64) (auth : Option AuthSys)
    (fuel : ℕ) (m : Method) (c : Nfs41Client) :
    (createSessionArgs exid).fore = foreChannel ∧
    ((new now auth ()).Sends (fun h q => 3 ≤ h.length → WithinLimits q) [] ↔
      handshakeSize auth ≤ maxRequestSize) ∧
    ((perform (fuel + 1) m c).Sends (fun _ q => WithinLimits q) [] ↔
      m.requestSize c.rpc_.auth_sys_ ≤ maxRequestSize) :=
  ⟨createSessionArgs_fore exid, new_sends_iff now auth, perform_sends_iff fuel m⟩

/-- The data of a WRITE alone can be too long. -/
theorem not_withinLimits_write {file : Nfs4File} {offset : UInt64} {stable : Stable4} {data : Bytes}
    {c : Nfs41Client} (hdata : maxRequestSize ≤ data.length) :
    ¬ (perform 1 (.file (.write file offset stable data)) c).Sends (fun _ q => WithinLimits q) [] := by
  rw [perform_sends_iff]
  change ¬ headerSize c.rpc_.auth_sys_ + (4 + (4 + (4 + (36 + (fhOpSize file.fh +
    (32 + opaqueSize data.length)))))) ≤ maxRequestSize
  have hle := le_opaqueSize data.length
  omega

/-- WRITE of 65536 bytes, with no credential. -/
theorem long_write_not_within_limits :
    ¬ (perform 1 (.file (.write ⟨⟨[1]⟩, Stateid4.anonymous, 0⟩ 0 ⟨0⟩
      (List.replicate 65536 0))) fresh).Sends (fun _ q => WithinLimits q) [] :=
  not_withinLimits_write List.length_replicate.ge

end Nfs41Client

end NfsClient
