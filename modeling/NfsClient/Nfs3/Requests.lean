import NfsClient.Nfs3.Client
import NfsClient.Nfs3.Protocol

/-!
# NFSv3 requests are well-formed

Every argument encoder writes the arguments of its procedure: `encodeArgs_eq` equates the bytes with
what the protocol's format writes, and the format's own law gives the rest, that a server reads
exactly the caller's arguments, and that nobody else's arguments have these bytes.

Where the caller has a flag and a value, the protocol has an optional value, so the arguments that a
server reads are those of the caller with the unused values dropped (`Sattr3.wire`).
-/

namespace NfsClient

open Xdr Reader

namespace Nfs3

/-! ### What the caller asks for -/

/-- A time field, as the protocol has it. -/
def timeArm (how : SetTimeHow) (sec nsec : UInt32) : (h : SetTimeHow) × TimeArm h :=
  match how with
  | .DONT_CHANGE => ⟨.DONT_CHANGE, ()⟩
  | .SET_TO_SERVER_TIME => ⟨.SET_TO_SERVER_TIME, ()⟩
  | .SET_TO_CLIENT_TIME => ⟨.SET_TO_CLIENT_TIME, ⟨sec, nsec⟩⟩

/-- A value under a flag. -/
def whenSet {α : Type} (flag : Bool) (a : α) : Option α := if flag then some a else none

end Nfs3

open Nfs3

/-- The settable attributes, as the protocol has them. -/
def Sattr3.wire (s : Sattr3) : SetAttrs where
  mode := whenSet s.set_mode s.mode
  uid := whenSet s.set_uid s.uid
  gid := whenSet s.set_gid s.gid
  size := whenSet s.set_size s.size
  atime := timeArm s.set_atime s.atime_sec s.atime_nsec
  mtime := timeArm s.set_mtime s.mtime_sec s.mtime_nsec

namespace Nfs3

namespace Call

/-- The procedure that is called. -/
def proc : Call → Proc
  | getattr .. => .GETATTR
  | setattr .. => .SETATTR
  | lookup .. => .LOOKUP
  | access .. => .ACCESS
  | readlink .. => .READLINK
  | read .. => .READ
  | write .. => .WRITE
  | create .. | createExclusive .. => .CREATE
  | mkdir .. => .MKDIR
  | symlink .. => .SYMLINK
  | mknodFifo .. | mknodSocket .. | mknodChr .. | mknodBlk .. => .MKNOD
  | remove .. => .REMOVE
  | rmdir .. => .RMDIR
  | rename .. => .RENAME
  | link .. => .LINK
  | readdirPage .. => .READDIR
  | readdirplusPage .. => .READDIRPLUS
  | fsstat .. => .FSSTAT
  | fsinfo .. => .FSINFO
  | pathconf .. => .PATHCONF
  | commit .. => .COMMIT

/-- The caller's arguments, as the protocol has them. -/
def args : (c : Call) → c.proc.Args
  | getattr fh | readlink fh | fsstat fh | fsinfo fh | pathconf fh => fh.data
  | setattr fh attrs guard =>
    (fh.data, attrs.wire, whenSet guard.check ⟨guard.ctime_sec, guard.ctime_nsec⟩)
  | lookup dir name | remove dir name | rmdir dir name => (dir.data, name)
  | access fh access_mask => (fh.data, access_mask)
  | read fh offset count | commit fh offset count => (fh.data, offset, count)
  | write fh offset stable data =>
    (fh.data, offset, UInt32.ofNat data.length, stable.value, data)
  | create dir name .UNCHECKED _ attrs => (dir.data, name, ⟨.UNCHECKED, attrs.wire⟩)
  | create dir name .GUARDED _ attrs => (dir.data, name, ⟨.GUARDED, attrs.wire⟩)
  | create _ _ .EXCLUSIVE hmode _ => absurd rfl hmode
  | createExclusive dir name verf => (dir.data, name, ⟨.EXCLUSIVE, verf⟩)
  | mkdir dir name attrs => (dir.data, name, attrs.wire)
  | symlink dir name target attrs => (dir.data, name, attrs.wire, target)
  | mknodFifo dir name attrs => (dir.data, name, ⟨.FIFO, attrs.wire⟩)
  | mknodSocket dir name attrs => (dir.data, name, ⟨.SOCK, attrs.wire⟩)
  | mknodChr dir name attrs spec =>
    (dir.data, name, ⟨.CHR, (attrs.wire, spec.major_num, spec.minor_num)⟩)
  | mknodBlk dir name attrs spec =>
    (dir.data, name, ⟨.BLK, (attrs.wire, spec.major_num, spec.minor_num)⟩)
  | rename from_dir from_name to_dir to_name =>
    ((from_dir.data, from_name), (to_dir.data, to_name))
  | link file link_dir link_name => (file.data, link_dir.data, link_name)
  | readdirPage dir cookie cookieverf count => (dir.data, cookie, cookieverf, count)
  | readdirplusPage dir cookie cookieverf dircount maxcount =>
    (dir.data, cookie, cookieverf, dircount, maxcount)

/-- Every handle, name, target and data has a count. -/
def Fits : Call → Prop
  | getattr fh | setattr fh _ _ | access fh _ | readlink fh | read fh _ _ | fsstat fh | fsinfo fh
  | pathconf fh | commit fh _ _ | readdirPage fh _ _ _ | readdirplusPage fh _ _ _ _ =>
    fh.data.length < 2 ^ 32
  | lookup dir name | create dir name _ _ _ | createExclusive dir name _ | mkdir dir name _
  | mknodFifo dir name _ | mknodSocket dir name _ | mknodChr dir name _ _ | mknodBlk dir name _ _
  | remove dir name | rmdir dir name => dir.data.length < 2 ^ 32 ∧ name.length < 2 ^ 32
  | write fh _ _ data => fh.data.length < 2 ^ 32 ∧ data.length < 2 ^ 32
  | symlink dir name target _ =>
    dir.data.length < 2 ^ 32 ∧ name.length < 2 ^ 32 ∧ target.length < 2 ^ 32
  | rename from_dir from_name to_dir to_name =>
    (from_dir.data.length < 2 ^ 32 ∧ from_name.length < 2 ^ 32) ∧
      to_dir.data.length < 2 ^ 32 ∧ to_name.length < 2 ^ 32
  | link file link_dir link_name =>
    file.data.length < 2 ^ 32 ∧ link_dir.data.length < 2 ^ 32 ∧ link_name.length < 2 ^ 32

theorem number_eq (c : Call) : c.number = c.proc.code := by
  cases c <;> rfl

end Call

/-! ### The encoders write the protocol -/

theorem encodeFh3_eq (fh : Fh3) : encodeFh3 fh = varOpaque fh.data := putOpaque_eq fh.data

theorem putIf_eq {α : Type} (f : Format α) (flag : Bool) (a : α) :
    putIf flag (f.write a) = (Format.optional f).write (whenSet flag a) := by
  unfold putIf
  rw [putUint32_eq]
  cases flag with
  | false => exact List.append_nil _
  | true => rfl

theorem putSetTime_eq (how : SetTimeHow) (sec nsec : UInt32) :
    putSetTime how sec nsec = Wire.setTime.write (timeArm how sec nsec) := by
  unfold putSetTime
  rw [putUint32_eq, putUint32_eq, putUint32_eq]
  cases how with
  | DONT_CHANGE => rfl
  | SET_TO_SERVER_TIME => rfl
  | SET_TO_CLIENT_TIME => rfl

theorem encodeSattr3_eq (s : Sattr3) : encodeSattr3 s = Wire.sattr3.write s.wire := by
  have hmode := putIf_eq Format.word s.set_mode s.mode
  have huid := putIf_eq Format.word s.set_uid s.uid
  have hgid := putIf_eq Format.word s.set_gid s.gid
  have hsize := putIf_eq Format.hyper s.set_size s.size
  unfold encodeSattr3
  rw [putUint32_eq, putUint32_eq, putUint32_eq, putUint64_eq, putSetTime_eq, putSetTime_eq]
  -- the left side puts the fields one behind the other, the right side nests them
  simp only [List.append_assoc]
  exact congr (congrArg _ hmode) <| congr (congrArg _ huid) <| congr (congrArg _ hgid) <|
    congr (congrArg _ hsize) rfl

/-- The guard of SETATTR. -/
theorem putGuard_eq (guard : SattrGuard3) :
    putIf guard.check (putUint32 guard.ctime_sec ++ putUint32 guard.ctime_nsec)
      = (Format.optional Wire.nfstime3).write
          (whenSet guard.check ⟨guard.ctime_sec, guard.ctime_nsec⟩) := by
  rw [putUint32_eq, putUint32_eq]
  exact putIf_eq Wire.nfstime3 guard.check ⟨guard.ctime_sec, guard.ctime_nsec⟩

theorem Call.encodeArgs_eq (c : Call) : c.encodeArgs = c.proc.argFormat.write c.args := by
  cases c with
  | getattr fh | readlink fh | fsstat fh | fsinfo fh | pathconf fh => exact encodeFh3_eq fh
  | setattr fh attrs guard =>
    change encodeSetattrArgs fh attrs guard = _
    unfold encodeSetattrArgs
    rw [encodeFh3_eq, encodeSattr3_eq, putGuard_eq, List.append_assoc]
    rfl
  | lookup dir name | remove dir name | rmdir dir name =>
    change encodeFh3 dir ++ putString name = _
    rw [encodeFh3_eq, putString_eq]
    rfl
  | access fh access_mask =>
    change encodeFh3 fh ++ putUint32 access_mask = _
    rw [encodeFh3_eq, putUint32_eq]
    rfl
  | read fh offset count | commit fh offset count =>
    change encodeFh3 fh ++ putUint64 offset ++ putUint32 count = _
    rw [encodeFh3_eq, putUint64_eq, putUint32_eq, List.append_assoc]
    rfl
  | write fh offset stable data =>
    change encodeWriteArgs fh offset stable data = _
    unfold encodeWriteArgs
    rw [encodeFh3_eq, putUint64_eq, putUint32_eq, putUint32_eq, putOpaque_eq]
    simp only [List.append_assoc]
    rfl
  | create dir name mode hmode attrs =>
    change encodeCreateArgs dir name mode attrs = _
    unfold encodeCreateArgs
    rw [encodeFh3_eq, putString_eq, putUint32_eq, encodeSattr3_eq]
    simp only [List.append_assoc]
    -- the two modes that this encoder is called with differ in one word
    cases mode with
    | UNCHECKED => rfl
    | GUARDED => rfl
    | EXCLUSIVE => exact absurd rfl hmode
  | createExclusive dir name verf =>
    change encodeCreateArgsExclusive dir name verf = _
    unfold encodeCreateArgsExclusive
    rw [encodeFh3_eq, putString_eq, putUint32_eq, putFixedOpaque_eq]
    simp only [List.append_assoc]
    rfl
  | mkdir dir name attrs =>
    change encodeMkdirArgs dir name attrs = _
    unfold encodeMkdirArgs
    rw [encodeFh3_eq, putString_eq, encodeSattr3_eq, List.append_assoc]
    rfl
  | symlink dir name target attrs =>
    change encodeSymlinkArgs dir name target attrs = _
    unfold encodeSymlinkArgs
    rw [encodeFh3_eq, putString_eq, putString_eq, encodeSattr3_eq]
    simp only [List.append_assoc]
    rfl
  | mknodFifo dir name attrs | mknodSocket dir name attrs =>
    change encodeMknodArgs dir name _ attrs = _
    unfold encodeMknodArgs
    rw [encodeFh3_eq, putString_eq, putUint32_eq, encodeSattr3_eq]
    simp only [List.append_assoc]
    rfl
  | mknodChr dir name attrs spec | mknodBlk dir name attrs spec =>
    change encodeMknodDeviceArgs dir name _ attrs spec = _
    unfold encodeMknodDeviceArgs
    rw [encodeFh3_eq, putString_eq, putUint32_eq, putUint32_eq, putUint32_eq, encodeSattr3_eq]
    simp only [List.append_assoc]
    rfl
  | rename from_dir from_name to_dir to_name =>
    change encodeRenameArgs from_dir from_name to_dir to_name = _
    unfold encodeRenameArgs
    rw [encodeFh3_eq, encodeFh3_eq, putString_eq, putString_eq, List.append_assoc]
    rfl
  | link file link_dir link_name =>
    change encodeLinkArgs file link_dir link_name = _
    unfold encodeLinkArgs
    rw [encodeFh3_eq, encodeFh3_eq, putString_eq, List.append_assoc]
    rfl
  | readdirPage dir cookie cookieverf count =>
    change encodeReaddirArgs dir cookie cookieverf count = _
    unfold encodeReaddirArgs
    rw [encodeFh3_eq, putUint64_eq, putFixedOpaque_eq, putUint32_eq]
    simp only [List.append_assoc]
    rfl
  | readdirplusPage dir cookie cookieverf dircount maxcount =>
    change encodeReaddirplusArgs dir cookie cookieverf dircount maxcount = _
    unfold encodeReaddirplusArgs
    rw [encodeFh3_eq, putUint64_eq, putFixedOpaque_eq, putUint32_eq, putUint32_eq]
    simp only [List.append_assoc]
    rfl

/-! ### The arguments have an encoding -/

theorem fits_setTime (x : (h : SetTimeHow) × TimeArm h) : Wire.setTime.Fits x := by
  obtain ⟨how, time⟩ := x
  cases how with
  | DONT_CHANGE => exact trivial
  | SET_TO_SERVER_TIME => exact trivial
  | SET_TO_CLIENT_TIME => exact ⟨trivial, trivial⟩

/-- Settable attributes are words and hypers. -/
theorem fits_sattr3 (a : SetAttrs) : Wire.sattr3.Fits a :=
  ⟨fun _ _ => trivial, fun _ _ => trivial, fun _ _ => trivial, fun _ _ => trivial,
    fits_setTime a.atime, fits_setTime a.mtime⟩

theorem Call.fits_args {c : Call} (h : c.Fits) : c.proc.argFormat.Fits c.args := by
  cases c with
  | getattr fh | readlink fh | fsstat fh | fsinfo fh | pathconf fh => exact h
  | setattr fh attrs guard => exact ⟨h, fits_sattr3 _, fun _ _ => ⟨trivial, trivial⟩⟩
  | lookup dir name | remove dir name | rmdir dir name => exact h
  | access fh access_mask => exact ⟨h, trivial⟩
  | read fh offset count | commit fh offset count => exact ⟨h, trivial, trivial⟩
  | write fh offset stable data => exact ⟨h.1, trivial, trivial, trivial, h.2⟩
  | create dir name mode hmode attrs =>
    cases mode with
    | UNCHECKED => exact ⟨h.1, h.2, fits_sattr3 _⟩
    | GUARDED => exact ⟨h.1, h.2, fits_sattr3 _⟩
    | EXCLUSIVE => exact absurd rfl hmode
  | createExclusive dir name verf => exact ⟨h.1, h.2, trivial⟩
  | mkdir dir name attrs => exact ⟨h.1, h.2, fits_sattr3 _⟩
  | symlink dir name target attrs => exact ⟨h.1, h.2.1, fits_sattr3 _, h.2.2⟩
  | mknodFifo dir name attrs | mknodSocket dir name attrs => exact ⟨h.1, h.2, fits_sattr3 _⟩
  | mknodChr dir name attrs spec | mknodBlk dir name attrs spec =>
    exact ⟨h.1, h.2, fits_sattr3 _, trivial, trivial⟩
  | rename from_dir from_name to_dir to_name => exact h
  | link file link_dir link_name => exact h
  | readdirPage dir cookie cookieverf count => exact ⟨h, trivial, trivial, trivial⟩
  | readdirplusPage dir cookie cookieverf dircount maxcount =>
    exact ⟨h, trivial, trivial, trivial, trivial⟩

/-- The server reads the caller's arguments. -/
theorem Call.read_encodeArgs {c : Call} (h : c.Fits) :
    c.proc.argFormat.read c.encodeArgs = .ok (c.args, []) := by
  rw [c.encodeArgs_eq]
  exact (Format.reads (fits_args h)).run

/-- A procedure and its arguments, as a server has them. -/
def Call.asked (c : Call) : (p : Proc) × p.Args := ⟨c.proc, c.args⟩

/-- What two readers of one format make of the same bytes. -/
theorem asked_eq {x y : (p : Proc) × p.Args} {bs : Bytes} (hp : x.1 = y.1)
    (hx : x.1.argFormat.read bs = .ok (x.2, [])) (hy : y.1.argFormat.read bs = .ok (y.2, [])) :
    x = y := by
  obtain ⟨p, a⟩ := x
  obtain ⟨q, b⟩ := y
  obtain rfl : p = q := hp
  cases hx.symm.trans hy
  rfl

/-- **Well-formed NFSv3 requests.** The bytes of every argument encoder parse as the arguments of
its procedure, with nothing left over and the caller's values in them, and no other call of the
procedure has the same bytes. -/
theorem requests_parse_exactly (c : Call) (h : c.Fits) :
    c.number = c.proc.code ∧ c.proc.argFormat.read c.encodeArgs = .ok (c.args, []) ∧
      ∀ d : Call, d.Fits → d.proc = c.proc → d.encodeArgs = c.encodeArgs → d.asked = c.asked := by
  refine ⟨c.number_eq, Call.read_encodeArgs h, fun d hd hproc hbytes => ?_⟩
  have hread := Call.read_encodeArgs hd
  rw [hbytes] at hread
  exact asked_eq hproc hread (Call.read_encodeArgs h)

/-- SYMLINK of a link whose mode is set and whose access time comes from the client. -/
theorem symlink_parses_exactly :
    Proc.SYMLINK.argFormat.read (encodeSymlinkArgs ⟨[1, 2, 3]⟩ [97] [98, 99]
        { set_mode := true, set_atime := .SET_TO_CLIENT_TIME, atime_sec := 7, atime_nsec := 8 })
      = .ok (([1, 2, 3], [97], ⟨some 0o644, none, none, none, ⟨.SET_TO_CLIENT_TIME, ⟨7, 8⟩⟩,
          ⟨.DONT_CHANGE, ()⟩⟩, [98, 99]), []) :=
  (requests_parse_exactly (.symlink ⟨[1, 2, 3]⟩ [97] [98, 99]
    { set_mode := true, set_atime := .SET_TO_CLIENT_TIME, atime_sec := 7, atime_nsec := 8 })
    ⟨by decide, by decide, by decide⟩).2.1

end Nfs3

end NfsClient
