import NfsClient.Framing.Frame

/-!
# RPC messages, as the protocol reads them

`Framing/Frame` reads a CALL as this client writes it. Here a CALL is read as any client may write it
(RFC 5531): the message type, the RPC version and the flavors are fields of what is read, and the
bodies of credential and verifier are opaque. `call_messages_read_back` says that every field comes
back from `buildCallMessage` as it was put in, down to the parameters inside the opaque credential, and
that the arguments begin exactly where the verifier ends.

The other direction is `parseReply`. It reads a header with one item of variable length and hands over
the rest. `parseReply_exact` says which byte strings it accepts, and that it throws on all others.
-/

namespace NfsClient

open Xdr Reader

/-! ### CALL -/

/-- `opaque_auth`. -/
structure OpaqueAuth where
  flavor : UInt32
  body : Bytes
  deriving DecidableEq

/-- A CALL up to its arguments, as a server reads it. -/
structure CallFields where
  xid : UInt32
  mtype : UInt32
  rpcvers : UInt32
  prog : UInt32
  vers : UInt32
  proc : UInt32
  cred : OpaqueAuth
  verf : OpaqueAuth
  deriving DecidableEq

namespace Wire

open Xdr.Format

def opaqueAuth : Format OpaqueAuth :=
  (pair word bytes).map
    ⟨fun ⟨flavor, body⟩ => ⟨flavor, body⟩, fun a => (a.flavor, a.body), fun _ => rfl, fun _ => rfl⟩

def callFields : Format CallFields :=
  (pair word (pair word (pair word (pair word (pair word (pair word
    (pair opaqueAuth opaqueAuth))))))).map
    ⟨fun ⟨xid, mtype, rpcvers, prog, vers, proc, cred, verf⟩ =>
        ⟨xid, mtype, rpcvers, prog, vers, proc, cred, verf⟩,
      fun c => (c.xid, c.mtype, c.rpcvers, c.prog, c.vers, c.proc, c.cred, c.verf),
      fun _ => rfl, fun _ => rfl⟩

end Wire

/-- What a server takes a credential for: nobody, or a user whose parameters fill the body. -/
def OpaqueAuth.Means (cred : OpaqueAuth) : Option AuthSys → Prop
  | none => cred.flavor = AUTH_NONE ∧ cred.body = []
  | some auth => cred.flavor = AUTH_SYS_FLAV ∧ Wire.authSys.read cred.body = .ok (auth, [])

/-- The body of the credential has a count. -/
def AuthSys.Fits (auth : AuthSys) : Prop := (encodeAuthSys auth).length < 2 ^ 32

/-- A body with a count has no longer parts. -/
theorem AuthSys.Fits.wire {auth : AuthSys} (h : auth.Fits) : Wire.authSys.Fits auth := by
  unfold AuthSys.Fits at h
  rw [encodeAuthSys_eq, measured_authSys.length_write] at h
  have hname := le_opaqueSize auth.machinename.length
  unfold AuthSys.size at h
  have hmachinename : auth.machinename.length < 2 ^ 32 := by omega
  have hgids : auth.gids.length < 2 ^ 32 := by omega
  exact ⟨trivial, hmachinename, trivial, trivial, hgids, fun _ _ => trivial⟩

/-- A credential means one user at most. -/
theorem OpaqueAuth.Means.unique {cred : OpaqueAuth} {auth auth' : Option AuthSys}
    (h : cred.Means auth) (h' : cred.Means auth') : auth = auth' := by
  have hflavors : AUTH_NONE ≠ AUTH_SYS_FLAV := by decide
  cases auth with
  | none =>
    cases auth' with
    | none => rfl
    | some a' => exact absurd (h.1.symm.trans h'.1) hflavors
  | some a =>
    cases auth' with
    | none => exact absurd (h'.1.symm.trans h.1) hflavors
    | some a' =>
      obtain ⟨heq, -⟩ := Prod.mk.inj (Except.ok.inj (h.2.symm.trans h'.2))
      rw [heq]

/-- The credential of a request, as it is put into the message. -/
def credentialOf : Option AuthSys → OpaqueAuth
  | none => ⟨AUTH_NONE, []⟩
  | some auth => ⟨AUTH_SYS_FLAV, encodeAuthSys auth⟩

theorem credentialOf_means {auth : Option AuthSys} (h : ∀ a ∈ auth, a.Fits) :
    (credentialOf auth).Means auth := by
  cases auth with
  | none => exact ⟨rfl, rfl⟩
  | some a =>
    refine ⟨rfl, ?_⟩
    change Wire.authSys.read (encodeAuthSys a) = .ok (a, [])
    rw [encodeAuthSys_eq]
    exact (Format.reads (h a rfl).wire).run

theorem write_credentialOf (auth : Option AuthSys) :
    Wire.opaqueAuth.write (credentialOf auth) = Wire.credential.write auth := by
  cases auth with
  | none => rfl
  | some a =>
    change word AUTH_SYS_FLAV ++ varOpaque (encodeAuthSys a) = _
    rw [encodeAuthSys_eq]
    rfl

theorem fits_credentialOf {auth : Option AuthSys} (h : ∀ a ∈ auth, a.Fits) :
    Wire.opaqueAuth.Fits (credentialOf auth) := by
  cases auth with
  | none => exact ⟨trivial, show 0 < 2 ^ 32 by decide⟩
  | some a => exact ⟨trivial, h a rfl⟩

/-- The fields of the message that `buildCallMessage` builds. -/
def callFieldsOf (xid prog vers proc : UInt32) (auth : Option AuthSys) : CallFields :=
  ⟨xid, MsgType.CALL, RPC_VERSION, prog, vers, proc, credentialOf auth, ⟨AUTH_NONE, []⟩⟩

theorem buildCallMessage_eq (xid prog vers proc : UInt32) (args : Bytes) (auth : Option AuthSys) :
    buildCallMessage xid prog vers proc args auth
      = Wire.callFields.write (callFieldsOf xid prog vers proc auth) ++ args := by
  have hmessage := RpcRequest.message_eq ⟨0, xid, prog, vers, proc, args, auth⟩
  refine hmessage.trans ?_
  rw [write_callHeader]
  change word xid ++ (_ ++ (_ ++ (_ ++ (_ ++ (_ ++ (Wire.credential.write auth ++ _)))))) ++ args = _
  rw [← write_credentialOf]
  rfl

theorem read_buildCallMessage (xid prog vers proc : UInt32) (args : Bytes) {auth : Option AuthSys}
    (h : ∀ a ∈ auth, a.Fits) :
    Wire.callFields.read (buildCallMessage xid prog vers proc args auth)
      = .ok (callFieldsOf xid prog vers proc auth, args) := by
  have hnone : Wire.opaqueAuth.Fits ⟨AUTH_NONE, []⟩ := ⟨trivial, show 0 < 2 ^ 32 by decide⟩
  rw [buildCallMessage_eq]
  have hfits : Wire.callFields.Fits (callFieldsOf xid prog vers proc auth) :=
    ⟨trivial, trivial, trivial, trivial, trivial, trivial, fits_credentialOf h, hnone⟩
  exact Format.reads hfits args

/-- **CALL messages.** A server finds in the message what the caller asked for, under the caller's
credential, and behind the verifier the caller's arguments. So the message determines all of it. -/
theorem call_messages_read_back (xid prog vers proc : UInt32) (args : Bytes)
    (auth : Option AuthSys) (h : ∀ a ∈ auth, a.Fits) :
    (∃ cred, Wire.callFields.read (buildCallMessage xid prog vers proc args auth)
        = .ok (⟨xid, MsgType.CALL, 2, prog, vers, proc, cred, ⟨AUTH_NONE, []⟩⟩, args) ∧
      cred.Means auth) ∧
    ∀ xid' prog' vers' proc' args' auth', (∀ a ∈ auth', AuthSys.Fits a) →
      buildCallMessage xid' prog' vers' proc' args' auth'
        = buildCallMessage xid prog vers proc args auth →
      (xid', prog', vers', proc', auth', args') = (xid, prog, vers, proc, auth, args) := by
  have hread := read_buildCallMessage xid prog vers proc args h
  constructor
  · exact ⟨credentialOf auth, hread, credentialOf_means h⟩
  · intro xid' prog' vers' proc' args' auth' h' hbytes
    have hread' := read_buildCallMessage xid' prog' vers' proc' args' h'
    rw [hbytes, hread] at hread'
    obtain ⟨hfields, rfl⟩ := Prod.mk.inj (Except.ok.inj hread')
    simp only [callFieldsOf, CallFields.mk.injEq] at hfields
    obtain ⟨rfl, -, -, rfl, rfl, rfl, hcred, -⟩ := hfields
    -- the credentials are the same bytes, and those name one user
    have hmeans := credentialOf_means h'
    rw [← hcred] at hmeans
    rw [hmeans.unique (credentialOf_means h)]

/-- A call by a user whose machine name is padded. -/
theorem call_message_reads_back :
    ∃ cred, Wire.callFields.read
        (buildCallMessage 9 100003 3 1 [1, 2, 3] (some ⟨7, ascii "host1", 1, 2, [3, 4, 5]⟩))
        = .ok (⟨9, MsgType.CALL, 2, 100003, 3, 1, cred, ⟨AUTH_NONE, []⟩⟩, [1, 2, 3]) ∧
      cred.Means (some ⟨7, ascii "host1", 1, 2, [3, 4, 5]⟩) := by
  refine (call_messages_read_back 9 100003 3 1 [1, 2, 3]
    (some ⟨7, ascii "host1", 1, 2, [3, 4, 5]⟩) ?_).1
  rintro a ⟨rfl⟩
  exact show (encodeAuthSys _).length < 2 ^ 32 by decide

/-! ### REPLY -/

/-- An accepted, successful REPLY with this body. The pad bytes of the verifier are any bytes. -/
def AcceptedReply (record body : Bytes) : Prop :=
  ∃ (xid flavor : UInt32) (verf pad : Bytes), verf.length < 2 ^ 32 ∧
    pad.length = padLen verf.length ∧
    record = word xid ++ (word 1 ++ (word 0 ++ (word flavor ++
      (word (UInt32.ofNat verf.length) ++ (verf ++ (pad ++ (word 0 ++ body)))))))

theorem parseReplyHeader_ok {record body : Bytes} {u : Unit} :
    parseReplyHeader record = .ok (u, body) ↔ AcceptedReply record body := by
  unfold parseReplyHeader
  constructor
  · intro h
    -- the header in the order in which it is read, then its three conditions
    obtain ⟨xid, r₁, hxid, h⟩ := bind_ok.mp h
    obtain ⟨mtype, r₂, hmtype, h⟩ := bind_ok.mp h
    obtain ⟨_, r₃, hreply, h⟩ := bind_ok.mp h
    obtain ⟨stat, r₄, hstat, h⟩ := bind_ok.mp h
    obtain ⟨_, r₅, haccepted, h⟩ := bind_ok.mp h
    obtain ⟨flavor, r₆, hflavor, h⟩ := bind_ok.mp h
    obtain ⟨verf, r₇, hverf, h⟩ := bind_ok.mp h
    obtain ⟨accept, r₈, haccept, hsuccess⟩ := bind_ok.mp h
    obtain ⟨htype, rfl⟩ := throwIf_ok.mp hreply
    obtain ⟨hzero, rfl⟩ := throwIf_ok.mp haccepted
    obtain ⟨hdone, rfl⟩ := throwIf_ok.mp hsuccess
    obtain ⟨pad, hlen, hpad, rfl⟩ := getOpaque_ok.mp hverf
    refine ⟨xid, flavor, verf, pad, hlen, hpad, ?_⟩
    rw [getUint32_ok.mp hxid, getUint32_ok.mp hmtype, getUint32_ok.mp hstat,
      getUint32_ok.mp hflavor, getUint32_ok.mp haccept, not_not.mp htype, not_not.mp hzero,
      not_not.mp hdone]
    rfl
  · rintro ⟨xid, flavor, verf, pad, hlen, hpad, rfl⟩
    refine bind_ok.mpr ⟨xid, _, getUint32_ok.mpr rfl, ?_⟩
    refine bind_ok.mpr ⟨1, _, getUint32_ok.mpr rfl, ?_⟩
    refine bind_ok.mpr ⟨(), _, throwIf_ok.mpr ⟨not_not.mpr rfl, rfl⟩, ?_⟩
    refine bind_ok.mpr ⟨0, _, getUint32_ok.mpr rfl, ?_⟩
    refine bind_ok.mpr ⟨(), _, throwIf_ok.mpr ⟨not_not.mpr rfl, rfl⟩, ?_⟩
    refine bind_ok.mpr ⟨flavor, _, getUint32_ok.mpr rfl, ?_⟩
    refine bind_ok.mpr ⟨verf, _, getOpaque_ok.mpr ⟨pad, hlen, hpad, rfl⟩, ?_⟩
    refine bind_ok.mpr ⟨0, _, getUint32_ok.mpr rfl, ?_⟩
    exact throwIf_ok.mpr ⟨not_not.mpr rfl, rfl⟩

/-- The body is what the header leaves. -/
theorem parseReply_ok {record body : Bytes} :
    parseReply record = .ok body ↔ parseReplyHeader record = .ok ((), body) := by
  unfold parseReply
  cases hheader : parseReplyHeader record with
  | error e =>
    have hbind : (do parseReplyHeader; getRemaining : XdrDecoder Bytes) record = .error e :=
      bind_error.mpr (.inl hheader)
    rw [hbind]
    constructor <;> intro h <;> cases h
  | ok x =>
    obtain ⟨⟨⟩, left⟩ := x
    rw [bind_of_ok hheader]
    change Except.ok left = Except.ok body ↔ _
    rw [Except.ok.injEq, Except.ok.injEq, Prod.mk.injEq, eq_self, true_and]

/-- **REPLY messages.** `parseReply` returns a body exactly if the record is an accepted, successful
REPLY with that body, and throws on every other record. A record that is cut off in front of the body
is one of those. -/
theorem parseReply_exact (record : Bytes) :
    (∀ body, parseReply record = .ok body ↔ AcceptedReply record body) ∧
    ((∀ body, ¬ AcceptedReply record body) → ∃ e, parseReply record = .error e) ∧
    ∀ body, AcceptedReply record body →
      ∀ n, n + body.length < record.length → ∃ e, parseReply (record.take n) = .error e := by
  have hiff : ∀ record body, parseReply record = .ok body ↔ AcceptedReply record body :=
    fun _ _ => parseReply_ok.trans parseReplyHeader_ok
  have hthrows : ∀ record, (∀ body, ¬ AcceptedReply record body) →
      ∃ e, parseReply record = .error e := by
    intro record hnone
    cases hparse : parseReply record with
    | error e => exact ⟨e, rfl⟩
    | ok body => exact absurd ((hiff record body).mp hparse) (hnone body)
  refine ⟨hiff record, hthrows record, ?_⟩
  intro body haccepted n hn
  -- the header takes what is in front of the body, so that a shorter record is not read
  have hheader : parseReplyHeader record = .ok ((), body) := parseReplyHeader_ok.mpr haccepted
  obtain ⟨e, hcut⟩ := parseReplyHeader_local.truncated hheader (m := n) (by omega)
  refine hthrows _ fun body' haccepted' => ?_
  have hread : parseReplyHeader (record.take n) = .ok ((), body') :=
    parseReplyHeader_ok.mpr haccepted'
  rw [hread] at hcut
  cases hcut

end NfsClient
