import NfsClient.Nfs4.Encoders

/-!
# What a request carries out

A COMPOUND is carried out if a strict peer reads it, to the last byte, and its operations then act
on the handles that the caller passed, with the caller's arguments (`CarriesOut`). What a method
means to do is stated as its `effects`: operations with the filehandles they find, whatever PUTFH,
PUTROOTFH and SAVEFH it took to put them there.

Bytes can be read back if every count in them is one: `Fits` bounds the handles, names, texts and
data of a method, `AttrsFit` its attribute list. Each string of a `Sattr4` has a count of its own,
but the list as a whole is an opaque too.
-/

namespace NfsClient

open Xdr Reader Interaction

/-- The object that a handle of the API stands for. -/
def Nfs4Fh.obj (fh : Nfs4Fh) : Obj := if fh.data = [] then .root else .handle fh.data

theorem effectsFrom_fhOp (fh : Nfs4Fh) (ops : List ArgOp) (s : FhState) :
    effectsFrom (fhOp fh :: ops) s = effectsFrom ops { s with current := some fh.obj } := by
  unfold fhOp Nfs4Fh.obj
  split <;> rfl

theorem mem_of_mem_effectsFrom {e : Effect} :
    ∀ {ops : List ArgOp} {s : FhState}, e ∈ effectsFrom ops s → e.op ∈ ops
  | [], _, h => absurd h List.not_mem_nil
  | op :: ops, s, h => by
    unfold effectsFrom at h
    split at h
    · exact List.mem_cons_of_mem _ (mem_of_mem_effectsFrom h)
    · rcases List.mem_cons.mp h with rfl | h
      · exact List.mem_cons_self
      · exact List.mem_cons_of_mem _ (mem_of_mem_effectsFrom h)

/-! ### What the methods mean to do -/

/-- The effects of the methods that send one COMPOUND. -/
def FileMethod.effects : FileMethod → List Effect
  | .lookup dir name =>
    [⟨⟨.LOOKUP, name⟩, some dir.obj, none⟩, ⟨⟨.GETFH, ()⟩, some (.entry dir.obj name), none⟩]
  | .getattr fh => [⟨⟨.GETATTR, makeBitmap4 getattrIds⟩, some fh.obj, none⟩]
  | .access fh mask => [⟨⟨.ACCESS, mask⟩, some fh.obj, none⟩]
  | .close f => [⟨⟨.CLOSE, (f.seqid, f.stateid)⟩, some f.fh.obj, none⟩]
  | .read f offset count => [⟨⟨.READ, (f.stateid, offset, count)⟩, some f.fh.obj, none⟩]
  | .write f offset stable data =>
    [⟨⟨.WRITE, (f.stateid, offset, stable.value, data)⟩, some f.fh.obj, none⟩]
  | .commit f offset count => [⟨⟨.COMMIT, (offset, count)⟩, some f.fh.obj, none⟩]
  | .mkdir dir name attrs =>
    [⟨⟨.CREATE, (⟨.DIR, ()⟩, name, attrs.wire)⟩, some dir.obj, none⟩,
      ⟨⟨.GETFH, ()⟩, some (.entry dir.obj name), none⟩]
  | .remove dir name => [⟨⟨.REMOVE, name⟩, some dir.obj, none⟩]
  | .rename src_dir src_name dst_dir dst_name =>
    [⟨⟨.RENAME, (src_name, dst_name)⟩, some dst_dir.obj, some src_dir.obj⟩]
  | .symlink dir name target attrs =>
    [⟨⟨.CREATE, (⟨.LNK, target⟩, name, attrs.wire)⟩, some dir.obj, none⟩,
      ⟨⟨.GETFH, ()⟩, some (.entry dir.obj name), none⟩]
  | .readlink fh => [⟨⟨.READLINK, ()⟩, some fh.obj, none⟩]
  | .setattr fh attrs => [⟨⟨.SETATTR, (Stateid4.anonymous, attrs.wire)⟩, some fh.obj, none⟩]

theorem FileMethod.effects_argOps (m : FileMethod) : NfsClient.effects m.argOps = m.effects := by
  cases m with
  | rename src_dir src_name dst_dir dst_name =>
    -- SAVEFH stands between the two handles
    have hsave : ∀ (ops : List ArgOp) (s : FhState), effectsFrom (⟨.SAVEFH, ()⟩ :: ops) s
        = effectsFrom ops { s with saved := s.current } := fun _ _ => rfl
    simp only [NfsClient.effects, FileMethod.argOps, effectsFrom_fhOp, hsave]
    rfl
  | _ =>
    simp only [NfsClient.effects, FileMethod.argOps, effectsFrom_fhOp]
    rfl

/-- The effects of the COMPOUND of `do_open`. -/
def openEffects (owner : Bytes) (dir : Nfs4Fh) (name : Bytes) (share_access : UInt32)
    (create : Bool) (clientid : UInt64) (seqid : UInt32) : List Effect :=
  [⟨⟨.OPEN, openArgs owner name share_access create clientid seqid⟩, some dir.obj, none⟩,
    ⟨⟨.GETFH, ()⟩, some (.entry dir.obj name), none⟩]

/-- The effects of one page of `readdir`. -/
def readdirEffects (dir : Nfs4Fh) (cookie : UInt64) (cookieverf : Octets 8) : List Effect :=
  [⟨⟨.READDIR, (cookie, cookieverf, 4096, 32768, makeBitmap4 readdirIds)⟩, some dir.obj, none⟩]

/-! ### Arguments of bounded length -/

/-- The handles, names, texts and data of a method have fewer than `2 ^ 32` bytes each. -/
def FileMethod.Fits : FileMethod → Prop
  | .lookup dir name | .remove dir name => dir.data.length < 2 ^ 32 ∧ name.length < 2 ^ 32
  | .getattr fh | .access fh _ | .readlink fh | .setattr fh _ => fh.data.length < 2 ^ 32
  | .close f | .read f _ _ | .commit f _ _ => f.fh.data.length < 2 ^ 32
  | .write f _ _ data => f.fh.data.length < 2 ^ 32 ∧ data.length < 2 ^ 32
  | .mkdir dir name _ => dir.data.length < 2 ^ 32 ∧ name.length < 2 ^ 32
  | .rename src_dir src_name dst_dir dst_name =>
    (src_dir.data.length < 2 ^ 32 ∧ src_name.length < 2 ^ 32) ∧
      dst_dir.data.length < 2 ^ 32 ∧ dst_name.length < 2 ^ 32
  | .symlink dir name target _ =>
    dir.data.length < 2 ^ 32 ∧ name.length < 2 ^ 32 ∧ target.length < 2 ^ 32

/-- The attribute list of the `Sattr4` of a method, if it takes one, has fewer than `2 ^ 32`
bytes. -/
def FileMethod.AttrsFit : FileMethod → Prop
  | .mkdir _ _ attrs | .symlink _ _ _ attrs | .setattr _ attrs => attrs.attrlist.length < 2 ^ 32
  | _ => True

theorem fits_fhOp {fh : Nfs4Fh} (h : fh.data.length < 2 ^ 32) : ArgOp.format.Fits (fhOp fh) := by
  unfold fhOp
  split
  · exact trivial
  · exact h

theorem fits_bitmap4 {bm : List UInt32} : Wire.bitmap4.Fits bm ↔ bm.length < 2 ^ 32 :=
  ⟨fun h => h.1, fun h => ⟨h, fun _ _ => trivial⟩⟩

theorem fits_wire {attrs : Sattr4} :
    Wire.fattr4.Fits attrs.wire ↔ attrs.attrlist.length < 2 ^ 32 :=
  ⟨fun h => h.2, fun h => ⟨fits_bitmap4.mpr (lt_of_le_of_lt attrs.length_bitmap (by decide)), h⟩⟩

theorem fits_stateid4 (sid : Stateid4) : Wire.stateid4.Fits sid := ⟨trivial, trivial⟩

/-- The operations of a method whose arguments have bounded length have an encoding. -/
theorem FileMethod.fits_argOps {m : FileMethod} (h : m.Fits) (ha : m.AttrsFit) :
    ∀ op ∈ m.argOps, ArgOp.format.Fits op := by
  have hnil : ∀ op ∈ ([] : List ArgOp), ArgOp.format.Fits op := fun op hop =>
    absurd hop List.not_mem_nil
  have hgetfh : ArgOp.format.Fits ⟨.GETFH, ()⟩ := trivial
  have hids : (makeBitmap4 getattrIds).length < 2 ^ 32 := by decide +kernel
  cases m with
  | lookup dir name =>
    exact List.forall_mem_cons.mpr ⟨fits_fhOp h.1, List.forall_mem_cons.mpr ⟨h.2,
      List.forall_mem_cons.mpr ⟨hgetfh, hnil⟩⟩⟩
  | getattr fh =>
    exact List.forall_mem_cons.mpr ⟨fits_fhOp h, List.forall_mem_cons.mpr
      ⟨fits_bitmap4.mpr hids, hnil⟩⟩
  | access fh mask =>
    exact List.forall_mem_cons.mpr ⟨fits_fhOp h, List.forall_mem_cons.mpr ⟨trivial, hnil⟩⟩
  | close f =>
    exact List.forall_mem_cons.mpr ⟨fits_fhOp h, List.forall_mem_cons.mpr
      ⟨⟨trivial, fits_stateid4 _⟩, hnil⟩⟩
  | read f offset count =>
    exact List.forall_mem_cons.mpr ⟨fits_fhOp h, List.forall_mem_cons.mpr
      ⟨⟨fits_stateid4 _, trivial, trivial⟩, hnil⟩⟩
  | write f offset stable data =>
    exact List.forall_mem_cons.mpr ⟨fits_fhOp h.1, List.forall_mem_cons.mpr
      ⟨⟨fits_stateid4 _, trivial, trivial, h.2⟩, hnil⟩⟩
  | commit f offset count =>
    exact List.forall_mem_cons.mpr ⟨fits_fhOp h, List.forall_mem_cons.mpr
      ⟨⟨trivial, trivial⟩, hnil⟩⟩
  | mkdir dir name attrs =>
    exact List.forall_mem_cons.mpr ⟨fits_fhOp h.1, List.forall_mem_cons.mpr
      ⟨⟨trivial, h.2, fits_wire.mpr ha⟩, List.forall_mem_cons.mpr ⟨hgetfh, hnil⟩⟩⟩
  | remove dir name =>
    exact List.forall_mem_cons.mpr ⟨fits_fhOp h.1, List.forall_mem_cons.mpr ⟨h.2, hnil⟩⟩
  | rename src_dir src_name dst_dir dst_name =>
    exact List.forall_mem_cons.mpr ⟨fits_fhOp h.1.1, List.forall_mem_cons.mpr ⟨trivial,
      List.forall_mem_cons.mpr ⟨fits_fhOp h.2.1, List.forall_mem_cons.mpr
        ⟨⟨h.1.2, h.2.2⟩, hnil⟩⟩⟩⟩
  | symlink dir name target attrs =>
    exact List.forall_mem_cons.mpr ⟨fits_fhOp h.1, List.forall_mem_cons.mpr
      ⟨⟨h.2.2, h.2.1, fits_wire.mpr ha⟩, List.forall_mem_cons.mpr ⟨hgetfh, hnil⟩⟩⟩
  | readlink fh =>
    exact List.forall_mem_cons.mpr ⟨fits_fhOp h, List.forall_mem_cons.mpr ⟨trivial, hnil⟩⟩
  | setattr fh attrs =>
    exact List.forall_mem_cons.mpr ⟨fits_fhOp h, List.forall_mem_cons.mpr
      ⟨⟨fits_stateid4 _, fits_wire.mpr ha⟩, hnil⟩⟩

/-- An operation of a method with too long an attribute list has no encoding. -/
theorem FileMethod.attrsFit_of_effects {m : FileMethod}
    (h : ∀ e ∈ m.effects, ArgOp.format.Fits e.op) : m.AttrsFit := by
  cases m with
  | mkdir dir name attrs => exact fits_wire.mp (h _ List.mem_cons_self).2.2
  | symlink dir name target attrs => exact fits_wire.mp (h _ List.mem_cons_self).2.2
  | setattr fh attrs => exact fits_wire.mp (h _ List.mem_cons_self).2
  | _ => exact trivial

/-! ### Carrying out -/

/-- A strict peer reads the bytes, to the last one, as a COMPOUND with the given effects. -/
def CarriesOut (minorversion : UInt32) (args : Bytes) (es : List Effect) : Prop :=
  ∃ c, Compound.format.read args = .ok (c, []) ∧ c.minorversion = minorversion ∧
    effects c.ops = es

/-- A call of the COMPOUND procedure with the given effects. -/
structure RpcRequest.IsCompound (q : RpcRequest) (minorversion : UInt32) (es : List Effect) :
    Prop where
  prog : q.prog = NFS4_PROG
  vers : q.vers = NFS4_VERS
  proc : q.proc = NFS4_PROC_COMPOUND
  args : CarriesOut minorversion q.args es

theorem carriesOut_write {tag : Bytes} {minorversion : UInt32} {ops : List ArgOp}
    (htag : tag.length < 2 ^ 32) (hlen : ops.length < 2 ^ 32)
    (hops : ∀ op ∈ ops, ArgOp.format.Fits op) :
    CarriesOut minorversion (Compound.format.write ⟨tag, minorversion, ops⟩) (effects ops) := by
  refine ⟨⟨tag, minorversion, ops⟩, ?_, rfl, rfl⟩
  exact Compound.format.read_ok.mpr ⟨⟨htag, trivial, hlen, hops⟩, (List.append_nil _).symm⟩

/-- The operations of a COMPOUND that is carried out have an encoding. -/
theorem CarriesOut.fits {minorversion : UInt32} {args : Bytes} {es : List Effect}
    (h : CarriesOut minorversion args es) : ∀ e ∈ es, ArgOp.format.Fits e.op := by
  obtain ⟨c, hread, -, rfl⟩ := h
  obtain ⟨⟨-, -, -, hops⟩, -⟩ := Compound.format.read_ok.mp hread
  exact fun e he => hops e.op (mem_of_mem_effectsFrom he)

/-- A strict peer reads the operations that are announced. -/
theorem CompoundCall.Announces.read {α : Type} {q : CompoundCall α} {ops : List ArgOp}
    (h : q.Announces ops) (htag : q.tag.length < 2 ^ 32) (hlen : ops.length < 2 ^ 32)
    (hops : ∀ op ∈ ops, ArgOp.format.Fits op) (rpc : TcpRpcClient) (minorversion : UInt32) :
    Compound.format.read (q.request rpc minorversion).args
      = .ok (⟨q.tag, minorversion, ops⟩, []) := by
  change Compound.format.read (NfsClient.compoundArgs q.tag q.ops q.numOps minorversion) = _
  rw [h.compoundArgs]
  exact Compound.format.read_ok.mpr ⟨⟨htag, trivial, hlen, hops⟩, (List.append_nil _).symm⟩

/-- The request of an announced call with bounded operations. -/
theorem CompoundCall.Announces.isCompound {α : Type} {q : CompoundCall α} {ops : List ArgOp}
    (h : q.Announces ops) (htag : q.tag.length < 2 ^ 32) (hlen : ops.length < 2 ^ 32)
    (hops : ∀ op ∈ ops, ArgOp.format.Fits op) (rpc : TcpRpcClient) (minorversion : UInt32) :
    (q.request rpc minorversion).IsCompound minorversion (effects ops) :=
  ⟨rfl, rfl, rfl, _, h.read htag hlen hops rpc minorversion, rfl, rfl⟩

theorem FileMethod.length_argOps (m : FileMethod) : m.argOps.length < 2 ^ 32 := by
  cases m <;> simp [FileMethod.argOps]

/-- The empty tag. -/
theorem length_nil_lt : ([] : Bytes).length < 2 ^ 32 := by decide

/-- The tag of the handshakes. -/
theorem length_init_lt : (ascii "init").length < 2 ^ 32 := by decide

theorem fits_openArgs {owner name : Bytes} {share_access : UInt32} {create : Bool}
    {clientid : UInt64} {seqid : UInt32} (ho : owner.length < 2 ^ 32) (hn : name.length < 2 ^ 32) :
    ArgOp.format.Fits ⟨.OPEN, openArgs owner name share_access create clientid seqid⟩ := by
  have hempty : Wire.fattr4.Fits (Sattr4.wire {}) := fits_wire.mpr (by decide)
  cases create
  · exact ⟨trivial, trivial, trivial, trivial, ho, trivial, hn⟩
  · exact ⟨trivial, trivial, trivial, trivial, ho, hempty, hn⟩

theorem fits_readdirArgs (cookie : UInt64) (cookieverf : Octets 8) :
    ArgOp.format.Fits
      ⟨.READDIR, (cookie, cookieverf, 4096, 32768, makeBitmap4 readdirIds)⟩ :=
  have hids : (makeBitmap4 readdirIds).length < 2 ^ 32 := by decide +kernel
  ⟨trivial, trivial, trivial, trivial, fits_bitmap4.mpr hids⟩

/-- A handle that was decoded from a reply has bounded length. -/
theorem decodeGetfhResult_length {bs rest : Bytes} {fh : Nfs4Fh}
    (h : decodeGetfhResult bs = .ok (fh, rest)) : fh.data.length < 2 ^ 32 := by
  obtain ⟨u, mid, -, hfh⟩ := bind_ok.mp h
  obtain ⟨data, hdata, rfl⟩ := map_ok.mp hfh
  obtain ⟨pad, hlen, -, -⟩ := getOpaque_ok.mp hdata
  exact hlen

/-! ### The COMPOUNDs of Nfs4Client -/

/-- A COMPOUND of a method begins with a handle, or is a RENEW. -/
def ArgOp.IsHead (op : ArgOp) : Prop := op.1 = .PUTFH ∨ op.1 = .PUTROOTFH ∨ op.1 = .RENEW

theorem isHead_fhOp (fh : Nfs4Fh) : (fhOp fh).IsHead := by
  unfold fhOp
  split
  · exact Or.inr (Or.inl rfl)
  · exact Or.inl rfl

theorem FileMethod.exists_argOps (m : FileMethod) : ∃ fh ops, m.argOps = fhOp fh :: ops := by
  cases m <;> exact ⟨_, _, rfl⟩

/-- **The rule of the methods**: all that they send are COMPOUNDs that are announced. -/
theorem Nfs4Client.wpM_perform {S : Type} {step : Step RpcRequest Received S} {P : RpcRequest → Prop}
    (hP : ∀ {α : Type} {q : CompoundCall α} {op : ArgOp} {ops : List ArgOp}, q.Announces (op :: ops) →
      q.tag = [] → op.IsHead → ∀ rpc, P (q.request rpc 0)) (fuel : ℕ) (m : Method) (c : Nfs4Client)
    (s : S) : wpM step (fun _ q => P q) (fun _ _ _ => True) (perform fuel m) c s := by
  have hopen : ∀ dir name share_access create,
      wpM step (fun _ q => P q) (fun _ _ _ => True) (doOpen fuel dir name share_access create) c s := by
    intro dir name share_access create
    -- each try and the OPEN_CONFIRM are requests of their own
    refine wpM_doOpen_exits (I := fun _ _ => True) rfl ?_ (fun _ _ _ _ _ _ _ => trivial) ?_ trivial
    · exact fun c' _ _ => hP (openFile_announces _ _ _ _ _ _) rfl (isHead_fhOp dir) c'.rpc_
    · intro c' s' r s'' _ _ _
      refine ⟨fun _ => trivial, fun open_res fh _ => ?_⟩
      split
      · exact ⟨hP (openConfirm_announces _ _ _) rfl (isHead_fhOp fh) _, fun _ _ _ => trivial⟩
      · exact trivial
  cases m with
  | file m =>
    obtain ⟨fh, ops, hops⟩ := m.exists_argOps
    have hannounces : (fileCall m).Announces (fhOp fh :: ops) := hops ▸ fileCall_announces m
    have htag : (fileCall m).tag = [] := by cases m <;> rfl
    exact wpM_onRpc_send.mpr ⟨hP hannounces htag (isHead_fhOp fh) c.rpc_, fun _ _ _ => trivial⟩
  | openRead dir name => exact hopen dir name _ _
  | openWrite dir name create => exact hopen dir name _ create
  | readdir dir =>
    exact wpM_readdirLoop (I := fun _ _ => True) (fun c' _ cookie cookieverf _ =>
      ⟨hP (readdirPage_announces dir cookie cookieverf) rfl (isHead_fhOp dir) c'.rpc_,
        fun _ _ _ => trivial⟩) (fun _ _ _ _ => trivial) trivial
  | renew =>
    exact wpM_fields_bind.mpr (wpM_onRpc_send.mpr
      ⟨hP (renew_announces c.clientid_) rfl (Or.inr (Or.inr rfl)) c.rpc_, fun _ _ _ => trivial⟩)
  | setAuthSys auth => exact trivial
  | clearAuth => exact trivial

end NfsClient
