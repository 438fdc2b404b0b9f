import NfsClient.Nfs3.Ops
import NfsClient.Nfs3.Protocol

/-!
# Optional attributes in NFSv3 replies

What the reply decoders have in common: each steps over `post_op_attr` and `wcc_data` blocks that may
be there or not. A block that is there is 84 bytes, or 24, and the decoder takes neither more nor
less of it (`skipPostOpAttr_reads`, `skipPreOpAttr_reads`), so that the fields behind it are found
whatever blocks precede them.

The status is judged at the start or behind the blocks; `reads_at_once`, `reads_behind` and their
counterparts for a failure are the two orders.
-/

namespace NfsClient

open Xdr Reader

namespace Nfs3

variable {α : Type}

/-! ### Attributes -/

theorem decodeFh3_reads {fh : Bytes} (h : fh.length < 2 ^ 32) :
    Reads decodeFh3 (varOpaque fh) ⟨fh⟩ := (getOpaque_reads h).map Fh3.mk

/-- A pair of words, such as a time, in front of what `f` reads. -/
theorem twoWords_bind_reads {f : UInt32 → UInt32 → XdrDecoder α} {v w : UInt32} {bs : Bytes} {a : α}
    (hf : Reads (f v w) bs a) :
    Reads (do let x ← getUint32; let y ← getUint32; f x y) ((word v ++ word w) ++ bs) a := by
  rw [List.append_assoc]
  exact (getUint32_reads v).bind ((getUint32_reads w).bind hf)

theorem twoWords_reads {f : UInt32 → UInt32 → XdrDecoder α} {v w : UInt32} {a : α}
    (hf : Reads (f v w) [] a) :
    Reads (do let x ← getUint32; let y ← getUint32; f x y) (word v ++ word w) a :=
  (getUint32_reads v).bind ((getUint32_reads w).bind_nil hf)

theorem decodeFattr3_reads (a : Fattr3) : Reads decodeFattr3 (Wire.fattr3.write a) a :=
  (getUint32_reads a.type.value).bind <| (getUint32_reads a.mode).bind <|
    (getUint32_reads a.nlink).bind <| (getUint32_reads a.uid).bind <|
    (getUint32_reads a.gid).bind <| (getUint64_reads a.size).bind <|
    (getUint64_reads a.used).bind <| twoWords_bind_reads <|
    (getUint64_reads a.fsid).bind <| (getUint64_reads a.fileid).bind <|
    twoWords_bind_reads <| twoWords_bind_reads <| twoWords_reads <| Reads.pure a

theorem skipPostOpAttr_reads (x : Option Fattr3) :
    Reads skipPostOpAttr (Wire.postOpAttr.write x) () := by
  unfold skipPostOpAttr
  cases x with
  | none =>
    refine (getUint32_reads 0).bind_nil ?_
    rw [if_neg (not_not.mpr rfl)]
    exact Reads.pure ()
  | some a =>
    refine (getUint32_reads 1).bind ?_
    rw [if_pos (by decide)]
    exact (decodeFattr3_reads a).bind_nil (Reads.pure ())

/-- A `wcc_attr` is six words. -/
theorem skipPreOpAttr_reads (x : Option WccAttr) :
    Reads skipPreOpAttr (Wire.preOpAttr.write x) () := by
  unfold skipPreOpAttr
  cases x with
  | none =>
    refine (getUint32_reads 0).bind_nil ?_
    rw [if_neg (not_not.mpr rfl)]
    exact Reads.pure ()
  | some a =>
    obtain ⟨size, mtime, ctime⟩ := a
    -- the size is two of the six words, each time is two
    obtain ⟨hi, lo, hsize, -⟩ := exists_words_hyper size
    have hbytes : (Format.pair Format.hyper (Format.pair Wire.nfstime3 Wire.nfstime3)).write
        (size, mtime, ctime) = [hi, lo, mtime.seconds, mtime.nseconds, ctime.seconds,
          ctime.nseconds].flatMap word := by
      change hyper size ++ ((word mtime.seconds ++ word mtime.nseconds) ++
        (word ctime.seconds ++ word ctime.nseconds)) = _
      rw [hsize]
      simp [List.append_assoc]
    have hwrite : Wire.preOpAttr.write (some (size, mtime, ctime)) =
        word 1 ++ [hi, lo, mtime.seconds, mtime.nseconds, ctime.seconds,
          ctime.nseconds].flatMap word := congrArg (word 1 ++ ·) hbytes
    rw [hwrite]
    refine (getUint32_reads 1).bind ?_
    rw [if_pos (by decide)]
    exact (times_getUint32_reads [hi, lo, mtime.seconds, mtime.nseconds, ctime.seconds,
      ctime.nseconds]).bind_nil (Reads.pure ())

theorem skipWccData_reads (w : WccData) : Reads skipWccData (Wire.wccData.write w) () :=
  (skipPreOpAttr_reads w.1).bind (skipPostOpAttr_reads w.2)

/-! ### Attributes always have an encoding -/

theorem fits_fattr3 (a : Fattr3) : Wire.fattr3.Fits a :=
  ⟨trivial, trivial, trivial, trivial, trivial, trivial, trivial, ⟨trivial, trivial⟩, trivial,
    trivial, ⟨trivial, trivial⟩, ⟨trivial, trivial⟩, trivial, trivial⟩

theorem fits_postOpAttr (x : Option Fattr3) : Wire.postOpAttr.Fits x := fun a _ => fits_fattr3 a

theorem fits_wccData (w : WccData) : Wire.wccData.Fits w :=
  ⟨fun _ _ => ⟨trivial, ⟨trivial, trivial⟩, trivial, trivial⟩, fits_postOpAttr w.2⟩

/-! ### The status -/

section

variable {name : String} {skip : XdrDecoder Unit} {f : XdrDecoder α} {bs cs : Bytes} {a : α}
  {status : UInt32}

theorem reads_at_once (hf : Reads f bs a) :
    Reads (do let s ← getUint32; throwIf (s ≠ 0) (.nfsError s name); f) (word 0 ++ bs) a :=
  (getUint32_reads 0).bind (throwIf_bind_reads (not_not.mpr rfl) hf)

theorem reads_behind (hskip : Reads skip bs ()) (hf : Reads f cs a) :
    Reads (do let s ← getUint32; skip; throwIf (s ≠ 0) (.nfsError s name); f)
      (word 0 ++ (bs ++ cs)) a :=
  (getUint32_reads 0).bind (hskip.bind (throwIf_bind_reads (not_not.mpr rfl) hf))

/-- `reads_behind` where there is nothing more to read. -/
theorem reads_last (hskip : Reads skip bs ()) :
    Reads (do let s ← getUint32; skip; throwIf (s ≠ 0) (.nfsError s name)) (word 0 ++ bs) () :=
  (getUint32_reads 0).bind (hskip.bind_nil (throwIf_reads (not_not.mpr rfl)))

theorem throws_at_once (hs : status ≠ 0) :
    (do let s ← getUint32; throwIf (s ≠ 0) (.nfsError s name); f) (word status ++ bs)
      = .error (.nfsError status name) := by
  rw [bind_of_ok (getUint32_reads status bs)]
  exact throwIf_bind_error hs

theorem throws_behind (hs : status ≠ 0) (hskip : Reads skip bs ()) :
    (do let s ← getUint32; skip; throwIf (s ≠ 0) (.nfsError s name); f) (word status ++ (bs ++ cs))
      = .error (.nfsError status name) := by
  rw [bind_of_ok (getUint32_reads status _), bind_of_ok (hskip cs)]
  exact throwIf_bind_error hs

theorem throws_last (hs : status ≠ 0) (hskip : Reads skip bs ()) :
    (do let s ← getUint32; skip; throwIf (s ≠ 0) (.nfsError s name)) (word status ++ (bs ++ cs))
      = .error (.nfsError status name) := by
  rw [bind_of_ok (getUint32_reads status _), bind_of_ok (hskip cs)]
  exact throwIf_error hs

end

end Nfs3

end NfsClient
