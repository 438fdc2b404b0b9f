import NfsClient.Lib.XdrSize
import NfsClient.Nfs3.Protocol
import NfsClient.Nfs4.Encoders

/-!
# Sizes of arguments

How many bytes the arguments of each NFSv3 procedure and of each operation of a COMPOUND have, as a
formula in the lengths of the handles, names, texts and data in them. The tables follow the formats
of the two `Protocol` modules case by case, and so do the proofs that they are right.
-/

namespace NfsClient

open Xdr Xdr.Format

/-! ### NFSv3 -/

namespace Nfs3

def timeArmSize : (h : SetTimeHow) → TimeArm h → ℕ
  | .DONT_CHANGE, _ | .SET_TO_SERVER_TIME, _ => 0
  | .SET_TO_CLIENT_TIME, _ => 8

/-- `set_atime` and `set_mtime`. -/
def setTimeSize (x : (h : SetTimeHow) × TimeArm h) : ℕ := 4 + timeArmSize x.1 x.2

/-- `sattr3`: a flag for each attribute, and the attribute if it is set. -/
def SetAttrs.wireSize (a : SetAttrs) : ℕ :=
  (4 + a.mode.elim 0 fun _ => 4) + ((4 + a.uid.elim 0 fun _ => 4) + ((4 + a.gid.elim 0 fun _ => 4) +
    ((4 + a.size.elim 0 fun _ => 8) + (setTimeSize a.atime + setTimeSize a.mtime))))

def createArmSize : (m : CreateMode3) → CreateArm m → ℕ
  | .UNCHECKED, attrs | .GUARDED, attrs => attrs.wireSize
  | .EXCLUSIVE, _ => 8

def createHowSize (x : (m : CreateMode3) × CreateArm m) : ℕ := 4 + createArmSize x.1 x.2

def nodeArmSize : (t : NodeType) → NodeArm t → ℕ
  | .BLK, (attrs, _) | .CHR, (attrs, _) => attrs.wireSize + 8
  | .SOCK, attrs | .FIFO, attrs => attrs.wireSize

def mknodDataSize (x : (t : NodeType) × NodeArm t) : ℕ := 4 + nodeArmSize x.1 x.2

/-- The size of the arguments of a procedure. -/
def Proc.argSize : (p : Proc) → p.Args → ℕ
  | GETATTR, fh | READLINK, fh | FSSTAT, fh | FSINFO, fh | PATHCONF, fh => opaqueSize fh.length
  | SETATTR, (fh, attrs, guard) =>
    opaqueSize fh.length + (attrs.wireSize + (4 + guard.elim 0 fun _ => 8))
  | LOOKUP, (dir, name) | REMOVE, (dir, name) | RMDIR, (dir, name) =>
    opaqueSize dir.length + opaqueSize name.length
  | ACCESS, (fh, _) => opaqueSize fh.length + 4
  | READ, (fh, _) | COMMIT, (fh, _) => opaqueSize fh.length + 12
  | WRITE, (fh, _, _, _, data) => opaqueSize fh.length + (8 + (4 + (4 + opaqueSize data.length)))
  | CREATE, (dir, name, how) =>
    opaqueSize dir.length + (opaqueSize name.length + createHowSize how)
  | MKDIR, (dir, name, attrs) =>
    opaqueSize dir.length + (opaqueSize name.length + attrs.wireSize)
  | SYMLINK, (dir, name, attrs, target) =>
    opaqueSize dir.length + (opaqueSize name.length + (attrs.wireSize + opaqueSize target.length))
  | MKNOD, (dir, name, data) =>
    opaqueSize dir.length + (opaqueSize name.length + mknodDataSize data)
  | RENAME, ((from_dir, from_name), (to_dir, to_name)) =>
    opaqueSize from_dir.length + opaqueSize from_name.length +
      (opaqueSize to_dir.length + opaqueSize to_name.length)
  | LINK, (file, link_dir, link_name) =>
    opaqueSize file.length + (opaqueSize link_dir.length + opaqueSize link_name.length)
  | READDIR, (dir, _) => opaqueSize dir.length + 20
  | READDIRPLUS, (dir, _) => opaqueSize dir.length + 24

theorem measured_nfstime3 : Measured Wire.nfstime3 fun _ => 8 := (Measured.word.pair Measured.word).map _

theorem measured_setTime : Measured Wire.setTime setTimeSize := by
  refine Measured.union fun k => ?_
  cases k with
  | DONT_CHANGE | SET_TO_SERVER_TIME => exact Measured.void
  | SET_TO_CLIENT_TIME => exact measured_nfstime3

theorem measured_sattr3 : Measured Wire.sattr3 SetAttrs.wireSize :=
  (Measured.word.optional.pair (Measured.word.optional.pair (Measured.word.optional.pair
    (Measured.hyper.optional.pair (measured_setTime.pair measured_setTime))))).map _

theorem measured_createHow : Measured Wire.createHow createHowSize := by
  refine Measured.union fun k => ?_
  cases k with
  | UNCHECKED | GUARDED => exact measured_sattr3
  | EXCLUSIVE => exact Measured.octets 8

theorem measured_mknodData : Measured Wire.mknodData mknodDataSize := by
  refine Measured.union fun k => ?_
  cases k with
  | BLK | CHR => exact measured_sattr3.pair (Measured.word.pair Measured.word)
  | SOCK | FIFO => exact measured_sattr3

theorem Proc.measured (p : Proc) : Measured p.argFormat p.argSize := by
  cases p with
  | GETATTR | READLINK | FSSTAT | FSINFO | PATHCONF => exact Measured.bytes
  | SETATTR => exact Measured.bytes.pair (measured_sattr3.pair measured_nfstime3.optional)
  | LOOKUP | REMOVE | RMDIR => exact Measured.bytes.pair Measured.bytes
  | ACCESS => exact Measured.bytes.pair Measured.word
  | READ | COMMIT => exact Measured.bytes.pair (Measured.hyper.pair Measured.word)
  | WRITE =>
    exact Measured.bytes.pair (Measured.hyper.pair (Measured.word.pair
      (Measured.word.pair Measured.bytes)))
  | CREATE => exact Measured.bytes.pair (Measured.bytes.pair measured_createHow)
  | MKDIR => exact Measured.bytes.pair (Measured.bytes.pair measured_sattr3)
  | SYMLINK => exact Measured.bytes.pair (Measured.bytes.pair (measured_sattr3.pair Measured.bytes))
  | MKNOD => exact Measured.bytes.pair (Measured.bytes.pair measured_mknodData)
  | RENAME =>
    exact (Measured.bytes.pair Measured.bytes).pair (Measured.bytes.pair Measured.bytes)
  | LINK => exact Measured.bytes.pair (Measured.bytes.pair Measured.bytes)
  | READDIR =>
    exact Measured.bytes.pair (Measured.hyper.pair ((Measured.octets 8).pair Measured.word))
  | READDIRPLUS =>
    exact Measured.bytes.pair (Measured.hyper.pair ((Measured.octets 8).pair
      (Measured.word.pair Measured.word)))

end Nfs3

/-! ### NFSv4 -/

/-- `fattr4`: a bitmap and an opaque. -/
def fattrSize (attrs : WireFattr) : ℕ := 4 + 4 * attrs.1.length + opaqueSize attrs.2.length

def CreateType.armSize : (t : CreateType) → t.Arm → ℕ
  | LNK, target => opaqueSize target.length
  | BLK, _ | CHR, _ => 8
  | DIR, _ | SOCK, _ | FIFO, _ => 0

def createTypeSize (x : (t : CreateType) × t.Arm) : ℕ := 4 + x.1.armSize x.2

def CreateMode.armSize : (m : CreateMode) → m.Arm → ℕ
  | UNCHECKED, attrs | GUARDED, attrs => fattrSize attrs
  | EXCLUSIVE, _ => 8

def createModeSize (x : (m : CreateMode) × m.Arm) : ℕ := 4 + x.1.armSize x.2

def OpenType.armSize : (t : OpenType) → t.Arm → ℕ
  | NOCREATE, _ => 0
  | CREATE, how => createModeSize how

def openTypeSize (x : (t : OpenType) × t.Arm) : ℕ := 4 + x.1.armSize x.2

def ClaimType.armSize : (t : ClaimType) → t.Arm → ℕ
  | NULL, name | DELEGATE_PREV, name => opaqueSize name.length
  | PREVIOUS, _ => 4
  | DELEGATE_CUR, (_, name) => 16 + opaqueSize name.length

def claimSize (x : (t : ClaimType) × t.Arm) : ℕ := 4 + x.1.armSize x.2

def implIdSize (i : ImplId) : ℕ := opaqueSize i.1.length + (opaqueSize i.2.1.length + 12)

/-- `channel_attrs4`: six words, and an array of words. -/
def channelAttrsSize (a : ChannelAttrs) : ℕ :=
  4 + (4 + (4 + (4 + (4 + (4 + (4 + 4 * a.2.2.2.2.2.2.length))))))

/-- The size of the arguments of an operation. -/
def Op.argSize : (o : Op) → o.Args → ℕ
  | ACCESS, _ | RECLAIM_COMPLETE, _ => 4
  | CLOSE, _ | OPEN_CONFIRM, _ => 20
  | COMMIT, _ => 12
  | CREATE, (type, name, attrs) => createTypeSize type + (opaqueSize name.length + fattrSize attrs)
  | GETATTR, bm => 4 + 4 * bm.length
  | GETFH, _ | PUTROOTFH, _ | READLINK, _ | SAVEFH, _ => 0
  | LOOKUP, name | PUTFH, name | REMOVE, name => opaqueSize name.length
  | OPEN, a =>
    4 + (4 + (4 + (8 + (opaqueSize a.owner.length + (openTypeSize a.how + claimSize a.claim)))))
  | READ, _ => 28
  | READDIR, (_, _, _, _, bm) => 8 + (8 + (4 + (4 + (4 + 4 * bm.length))))
  | RENAME, (oldname, newname) => opaqueSize oldname.length + opaqueSize newname.length
  | RENEW, _ => 8
  | SETATTR, (_, attrs) => 16 + fattrSize attrs
  | SETCLIENTID, (_, id, _, netid, addr, _) =>
    8 + (opaqueSize id.length + (4 + (opaqueSize netid.length + (opaqueSize addr.length + 4))))
  | SETCLIENTID_CONFIRM, _ => 16
  | WRITE, (_, _, _, data) => 16 + (8 + (4 + opaqueSize data.length))
  | EXCHANGE_ID, (_, owner, _, _, impls) =>
    8 + (opaqueSize owner.length + (4 + (4 + (4 + (impls.map implIdSize).sum))))
  | CREATE_SESSION, a =>
    8 + (4 + (4 + (channelAttrsSize a.fore + (channelAttrsSize a.back +
      (4 + (4 + 4 * a.sec_parms.length))))))
  | SEQUENCE, _ => 32

/-- An operation has its number in front. -/
def ArgOp.size (op : ArgOp) : ℕ := 4 + op.1.argSize op.2

/-- The size of a COMPOUND: the tag, two words, the operations. -/
def compoundSize (tag : Bytes) (opsSize : ℕ) : ℕ := opaqueSize tag.length + (4 + (4 + opsSize))

def Compound.size (c : Compound) : ℕ := compoundSize c.tag (c.ops.map ArgOp.size).sum

theorem measured_fattr4 : Measured Wire.fattr4 fattrSize := Measured.words.pair Measured.bytes

theorem measured_stateid4 : Measured Wire.stateid4 fun _ => 16 :=
  (Measured.word.pair (Measured.octets 12)).map _

theorem measured_createType : Measured CreateType.format createTypeSize := by
  refine Measured.union fun k => ?_
  cases k with
  | LNK => exact Measured.bytes
  | BLK | CHR => exact Measured.word.pair Measured.word
  | DIR | SOCK | FIFO => exact Measured.void

theorem measured_createMode : Measured CreateMode.format createModeSize := by
  refine Measured.union fun k => ?_
  cases k with
  | UNCHECKED | GUARDED => exact measured_fattr4
  | EXCLUSIVE => exact Measured.octets 8

theorem measured_openType : Measured OpenType.format openTypeSize := by
  refine Measured.union fun k => ?_
  cases k with
  | NOCREATE => exact Measured.void
  | CREATE => exact measured_createMode

theorem measured_claim : Measured ClaimType.format claimSize := by
  refine Measured.union fun k => ?_
  cases k with
  | NULL | DELEGATE_PREV => exact Measured.bytes
  | PREVIOUS => exact Measured.word
  | DELEGATE_CUR => exact measured_stateid4.pair Measured.bytes

theorem measured_channelAttrs : Measured Wire.channelAttrs channelAttrsSize :=
  Measured.word.pair (Measured.word.pair (Measured.word.pair (Measured.word.pair
    (Measured.word.pair (Measured.word.pair Measured.words)))))

theorem measured_openArgs : Measured Wire.openArgs (Op.argSize .OPEN) :=
  (Measured.word.pair (Measured.word.pair (Measured.word.pair (Measured.hyper.pair
    (Measured.bytes.pair (measured_openType.pair measured_claim)))))).map _

theorem measured_createSessionArgs :
    Measured Wire.createSessionArgs (Op.argSize .CREATE_SESSION) :=
  (Measured.hyper.pair (Measured.word.pair (Measured.word.pair (measured_channelAttrs.pair
    (measured_channelAttrs.pair (Measured.word.pair
      ((Measured.literal 0).array_const (by decide)))))))).map _

theorem measured_implId : Measured Wire.implId implIdSize :=
  Measured.bytes.pair (Measured.bytes.pair (Measured.hyper.pair Measured.word))

theorem Op.measured (o : Op) : Measured o.argFormat o.argSize := by
  cases o with
  | ACCESS => exact Measured.word
  | CLOSE => exact Measured.word.pair measured_stateid4
  | COMMIT => exact Measured.hyper.pair Measured.word
  | CREATE => exact measured_createType.pair (Measured.bytes.pair measured_fattr4)
  | GETATTR => exact Measured.words
  | GETFH | PUTROOTFH | READLINK | SAVEFH => exact Measured.void
  | LOOKUP | PUTFH | REMOVE => exact Measured.bytes
  | OPEN => exact measured_openArgs
  | OPEN_CONFIRM => exact measured_stateid4.pair Measured.word
  | READ => exact measured_stateid4.pair (Measured.hyper.pair Measured.word)
  | READDIR =>
    exact Measured.hyper.pair ((Measured.octets 8).pair (Measured.word.pair (Measured.word.pair
      Measured.words)))
  | RENAME => exact Measured.bytes.pair Measured.bytes
  | RENEW => exact Measured.hyper
  | SETATTR => exact measured_stateid4.pair measured_fattr4
  | SETCLIENTID =>
    exact (Measured.octets 8).pair (Measured.bytes.pair (Measured.word.pair (Measured.bytes.pair
      (Measured.bytes.pair Measured.word))))
  | SETCLIENTID_CONFIRM => exact Measured.hyper.pair (Measured.octets 8)
  | WRITE => exact measured_stateid4.pair (Measured.hyper.pair (Measured.word.pair Measured.bytes))
  | EXCHANGE_ID =>
    have himpls := measured_implId.array fun i => by
      unfold implIdSize
      omega
    exact (Measured.octets 8).pair (Measured.bytes.pair (Measured.word.pair
      ((Measured.literal 0).pair himpls)))
  | CREATE_SESSION => exact measured_createSessionArgs
  | SEQUENCE =>
    exact ((Measured.octets 16).pair (Measured.word.pair (Measured.word.pair (Measured.word.pair
      Measured.bool)))).map _
  | RECLAIM_COMPLETE => exact Measured.bool

theorem ArgOp.measured : Measured ArgOp.format ArgOp.size := Measured.union Op.measured

theorem Compound.measured : Measured Compound.format Compound.size :=
  (Measured.bytes.pair (Measured.word.pair
    (ArgOp.measured.array fun _ => Nat.add_pos_left (Nat.succ_pos 3) _))).map _

/-! ### The methods -/

/-- PUTROOTFH or PUTFH. -/
def fhOpSize (fh : Nfs4Fh) : ℕ := if fh.data = [] then 4 else 4 + opaqueSize fh.data.length

namespace Sattr4

/-- The words of the bitmap, up to the one of the highest attribute that is set. -/
def bitmapWords (attrs : Sattr4) : ℕ :=
  if attrs.time_access.isSome ∨ attrs.time_modify.isSome then 3
  else if attrs.mode.isSome ∨ attrs.owner.isSome ∨ attrs.owner_group.isSome then 2
  else if attrs.size.isSome then 1
  else 0

/-- The bytes of the attribute list. -/
def listSize (attrs : Sattr4) : ℕ :=
  (attrs.size.elim 0 fun _ => 8) + (attrs.mode.elim 0 fun _ => 4) +
    (attrs.owner.elim 0 fun s => opaqueSize s.length) +
    (attrs.owner_group.elim 0 fun s => opaqueSize s.length) +
    (attrs.time_access.elim 0 fun _ => 16) + (attrs.time_modify.elim 0 fun _ => 16)

/-- The size of a `fattr4`. -/
def wireSize (attrs : Sattr4) : ℕ := 4 + 4 * attrs.bitmapWords + opaqueSize attrs.listSize

theorem length_ifPresent {α : Type} {put : α → Bytes} {size : α → ℕ}
    (h : ∀ a, (put a).length = size a) (x : Option α) : (ifPresent put x).length = x.elim 0 size := by
  cases x with
  | none => rfl
  | some a => exact h a

theorem length_attrlist_eq (attrs : Sattr4) : attrs.attrlist.length = attrs.listSize := by
  have htime : ∀ t : Nfstime4, (putSettime4 t).length = 16 := by
    intro t
    rw [putSettime4, putUint32_eq, putUint64_eq, putUint32_eq]
    simp
  have hstring : ∀ s : Bytes, (putString s).length = opaqueSize s.length := by
    intro s
    rw [putString_eq]
    exact length_varOpaque s
  have hword : ∀ v : UInt32, (putUint32 v).length = 4 := fun v => by rw [putUint32_eq, length_word]
  have hhyper : ∀ v : UInt64, (putUint64 v).length = 8 := fun v => by rw [putUint64_eq, length_hyper]
  unfold attrlist listSize
  simp only [List.length_append, length_ifPresent hhyper, length_ifPresent hword,
    length_ifPresent hstring, length_ifPresent htime]

/-- Setting an attribute extends the bitmap to its word. -/
theorem length_ite_bitmap4Set (c : Bool) (bm : List UInt32) (id : UInt32) :
    (if c then bitmap4Set bm id else bm).length =
      if c then max bm.length ((id / 32).toNat + 1) else bm.length := by
  cases c with
  | false => rfl
  | true => exact length_bitmap4Set bm id

theorem length_bitmap_eq (attrs : Sattr4) : attrs.bitmap.length = attrs.bitmapWords := by
  have h₀ : (Attr.SIZE / 32).toNat = 0 := by decide
  have h₁ : (Attr.MODE / 32).toNat = 1 := by decide
  have h₂ : (Attr.OWNER / 32).toNat = 1 := by decide
  have h₃ : (Attr.OWNER_GROUP / 32).toNat = 1 := by decide
  have h₄ : (Attr.TIME_ACCESS_SET / 32).toNat = 2 := by decide
  have h₅ : (Attr.TIME_MODIFY_SET / 32).toNat = 2 := by decide
  unfold bitmap bitmapWords
  simp only [length_ite_bitmap4Set, h₀, h₁, h₂, h₃, h₄, h₅, List.length_nil]
  generalize attrs.size.isSome = a, attrs.mode.isSome = b, attrs.owner.isSome = c,
    attrs.owner_group.isSome = d, attrs.time_access.isSome = e, attrs.time_modify.isSome = f
  decide +revert

theorem fattrSize_wire (attrs : Sattr4) : fattrSize attrs.wire = attrs.wireSize := by
  change 4 + 4 * attrs.bitmap.length + opaqueSize attrs.attrlist.length = _
  rw [length_bitmap_eq, length_attrlist_eq]
  rfl

end Sattr4

theorem ArgOp.size_mk (o : Op) (a : o.Args) : ArgOp.size ⟨o, a⟩ = 4 + o.argSize a := rfl

theorem size_fhOp (fh : Nfs4Fh) : (fhOp fh).size = fhOpSize fh := by
  unfold fhOp fhOpSize
  split <;> rfl

/-- The size of the operations of a method. -/
def FileMethod.opsSize : FileMethod → ℕ
  | .lookup dir name => fhOpSize dir + (4 + opaqueSize name.length) + 4
  | .getattr fh => fhOpSize fh + 16
  | .access fh _ => fhOpSize fh + 8
  | .close f => fhOpSize f.fh + 24
  | .read f _ _ => fhOpSize f.fh + 32
  | .write f _ _ data => fhOpSize f.fh + (32 + opaqueSize data.length)
  | .commit f _ _ => fhOpSize f.fh + 16
  | .mkdir dir name attrs => fhOpSize dir + (8 + opaqueSize name.length + attrs.wireSize) + 4
  | .remove dir name => fhOpSize dir + (4 + opaqueSize name.length)
  | .rename src_dir src_name dst_dir dst_name =>
    fhOpSize src_dir + 4 + fhOpSize dst_dir +
      (4 + opaqueSize src_name.length + opaqueSize dst_name.length)
  | .symlink dir name target attrs =>
    fhOpSize dir +
      (8 + opaqueSize target.length + opaqueSize name.length + attrs.wireSize) + 4
  | .readlink fh => fhOpSize fh + 4
  | .setattr fh attrs => fhOpSize fh + (20 + attrs.wireSize)

theorem FileMethod.sum_size_argOps (m : FileMethod) : (m.argOps.map ArgOp.size).sum = m.opsSize := by
  have hids : (makeBitmap4 getattrIds).length = 2 := by decide +kernel
  cases m <;>
    simp only [FileMethod.argOps, FileMethod.opsSize, List.map_cons, List.map_nil, List.sum_cons,
      List.sum_nil, size_fhOp, ArgOp.size_mk, Op.argSize, createTypeSize, CreateType.armSize,
      Sattr4.fattrSize_wire, hids] <;>
    omega

end NfsClient
