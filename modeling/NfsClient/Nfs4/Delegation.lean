import NfsClient.Nfs4.Accepted
import NfsClient.Nfs4.Facades

/-!
# The delegation in the result of an OPEN

The result of OPEN ends with an `open_delegation4`, and the handle that `do_open` returns is read from
the GETFH result behind it, by position. NFSv4.1 has an arm more than NFSv4.0: NONE_EXT, which says
why there is no delegation. The decoder knows the arms READ and WRITE and takes every other type to
have no body, so that it reads the body of NONE_EXT as the beginning of the GETFH result.

What it makes of that is decided by the words it then finds in the places of the opcode, the status
and the length. Of a NONE_EXT most reasons end in an exception, since the opcode of GETFH stands where
the status is expected; but where the reason comes with a flag that is off, the flag is taken for the
status, the opcode for the length, and `do_open` returns a file with ten bytes of the result for a
handle (`nextHandle_noneExt`). `delegation_arms_iff` says for which replies it does what it should.
-/

namespace NfsClient

open Xdr Reader Interaction

/-! ### open_delegation4 of NFSv4.1 -/

/-- `why_no_delegation4`. -/
inductive WhyNoDelegation
  | NOT_WANTED | CONTENTION | RESOURCE | NOT_SUPP_FTYPE | WRITE_DELEG_NOT_SUPP_FTYPE
  | NOT_SUPP_UPGRADE | NOT_SUPP_DOWNGRADE | CANCELLED | IS_DIR
  deriving DecidableEq, Repr

namespace WhyNoDelegation

def code : WhyNoDelegation → UInt32
  | NOT_WANTED => 0 | CONTENTION => 1 | RESOURCE => 2 | NOT_SUPP_FTYPE => 3
  | WRITE_DELEG_NOT_SUPP_FTYPE => 4 | NOT_SUPP_UPGRADE => 5 | NOT_SUPP_DOWNGRADE => 6
  | CANCELLED => 7 | IS_DIR => 8

def all : List WhyNoDelegation :=
  [NOT_WANTED, CONTENTION, RESOURCE, NOT_SUPP_FTYPE, WRITE_DELEG_NOT_SUPP_FTYPE, NOT_SUPP_UPGRADE,
    NOT_SUPP_DOWNGRADE, CANCELLED, IS_DIR]

/-- `open_none_delegation4`: for CONTENTION whether the server will push a delegation, for RESOURCE
whether it will signal that one is available. -/
@[reducible] def Arm : WhyNoDelegation → Type
  | CONTENTION | RESOURCE => Bool
  | _ => Unit

def format : Format ((w : WhyNoDelegation) × w.Arm) :=
  Format.union code (findArm code all) (findArm_eq (by intro k; cases k <;> rfl)) fun
    | CONTENTION | RESOURCE => Format.bool
    | NOT_WANTED | NOT_SUPP_FTYPE | WRITE_DELEG_NOT_SUPP_FTYPE | NOT_SUPP_UPGRADE
    | NOT_SUPP_DOWNGRADE | CANCELLED | IS_DIR => Format.void

end WhyNoDelegation

/-- `open_delegation_type4`. -/
inductive DelegType41
  | NONE | READ | WRITE | NONE_EXT
  deriving DecidableEq, Repr

namespace DelegType41

def code : DelegType41 → UInt32
  | NONE => 0 | READ => 1 | WRITE => 2 | NONE_EXT => 3

@[reducible] def Arm : DelegType41 → Type
  | NONE => DelegType.NONE.Arm
  | READ => DelegType.READ.Arm
  | WRITE => DelegType.WRITE.Arm
  | NONE_EXT => (w : WhyNoDelegation) × w.Arm

def format : Format ((t : DelegType41) × t.Arm) :=
  Format.union code (findArm code [NONE, READ, WRITE, NONE_EXT])
    (findArm_eq (by intro k; cases k <;> rfl)) fun
    | NONE => Format.void
    | READ => Format.pair Wire.stateid4 (Format.pair Format.bool DelegType.ace)
    | WRITE =>
      Format.pair Wire.stateid4 (Format.pair Format.bool (Format.pair LimitBy.format DelegType.ace))
    | NONE_EXT => WhyNoDelegation.format

end DelegType41

/-- The result of a successful GETFH. -/
def getfhResult (fh : Bytes) : Bytes := word Op.GETFH.code ++ (word 0 ++ varOpaque fh)

/-! ### Where the handle is read -/

/-- What `do_open` reads behind the attributes that OPEN has set. -/
def nextHandle : XdrDecoder Nfs4Fh := do
  skipDelegation
  decodeGetfhResult

/-- The arms that have a body the decoder knows, or none. -/
theorem nextHandle_known {d : (t : DelegType41) × t.Arm} (hd : DelegType41.format.Fits d)
    (hne : d.1 ≠ .NONE_EXT) {fh : Bytes} (hfh : fh.length < 2 ^ 32) :
    nextHandle (DelegType41.format.write d ++ getfhResult fh) = .ok (⟨fh⟩, []) := by
  have hskip : Reads skipDelegation (DelegType41.format.write d) () := by
    obtain ⟨t, arm⟩ := d
    cases t with
    | NONE => exact skipDelegation_reads (d := ⟨.NONE, arm⟩) hd
    | READ => exact skipDelegation_reads (d := ⟨.READ, arm⟩) hd
    | WRITE => exact skipDelegation_reads (d := ⟨.WRITE, arm⟩) hd
    | NONE_EXT => exact absurd rfl hne
  exact (hskip.bind (f := fun _ => decodeGetfhResult) (decodeGetfhResult_reads hfh)).run

/-- Every other type is taken to have no body. -/
theorem nextHandle_other {w : UInt32} (h₁ : w ≠ 1) (h₂ : w ≠ 2) (rest : Bytes) :
    nextHandle (word w ++ rest) = decodeGetfhResult rest := by
  have hskip : skipDelegation (word w ++ rest) = .ok ((), rest) := by
    unfold skipDelegation
    rw [bind_of_ok (getUint32_reads w rest), if_neg h₁, if_neg h₂]
    rfl
  exact bind_of_ok hskip

/-- A word in the place of the status. -/
theorem decodeGetfhResult_throws (code : UInt32) {status : UInt32} (hs : status ≠ 0)
    (rest : Bytes) :
    decodeGetfhResult (word code ++ (word status ++ rest))
      = .error (.nfs4Error status "GETFH") := by
  have hcheck : opStatus "GETFH" (word code ++ (word status ++ rest))
      = .error (.nfs4Error status "GETFH") := by
    unfold opStatus
    rw [bind_of_ok (getUint32_reads code _), bind_of_ok (getUint32_reads status rest)]
    exact throwIf_error hs
  exact bind_error.mpr (Or.inl hcheck)

/-! ### NONE_EXT -/

/-- A flag that is off, read as the status, and the GETFH result read from its opcode on as a handle
of ten bytes. -/
theorem decodeGetfhResult_misread (code : UInt32) (fh : Bytes) :
    (∃ rest, decodeGetfhResult (word code ++ (word 0 ++ getfhResult fh)) = .ok (⟨fh⟩, rest)) ↔
      fh = [0, 0, 0, 0, 0, 0, 0, 10, 0, 0] := by
  constructor
  · rintro ⟨rest, h⟩
    obtain ⟨code', pad, hlen, -, hbytes⟩ := decodeGetfhResult_ok.mp h
    obtain ⟨-, hbytes⟩ := List.append_inj hbytes rfl
    obtain ⟨-, hbytes⟩ := List.append_inj hbytes rfl
    obtain ⟨hcount, hbytes⟩ := List.append_inj hbytes rfl
    -- the opcode is the count
    have hten : fh.length = 10 := by
      have hcode := congrArg UInt32.toNat (word_injective hcount)
      rw [toNat_ofNat_of_lt hlen] at hcode
      exact hcode.symm
    unfold varOpaque at hbytes
    rw [hten] at hbytes
    match fh, hten with
    | [b₀, b₁, b₂, b₃, b₄, b₅, b₆, b₇, b₈, b₉], _ =>
      have hzero : word 0 = [0, 0, 0, 0] := by decide
      have hcount : word (UInt32.ofNat 10) = [0, 0, 0, 10] := by decide
      rw [hzero, hcount, fixedOpaque] at hbytes
      simp only [List.cons_append, List.nil_append, List.cons.injEq] at hbytes
      obtain ⟨rfl, rfl, rfl, rfl, rfl, rfl, rfl, rfl, rfl, rfl, -⟩ := hbytes
      rfl
  · rintro rfl
    exact ⟨[0, 0, 0, 10, 0, 0, 0, 0], decodeGetfhResult_ok.mpr ⟨code, [0, 0], by decide, rfl, rfl⟩⟩

/-- The reply for which the misreading comes out right: the flag is off, and the handle is made of the
very bytes that are taken for it. -/
def Coincides (d : (t : DelegType41) × t.Arm) (fh : Bytes) : Prop :=
  (d = ⟨.NONE_EXT, ⟨.CONTENTION, false⟩⟩ ∨ d = ⟨.NONE_EXT, ⟨.RESOURCE, false⟩⟩) ∧
    fh = [0, 0, 0, 0, 0, 0, 0, 10, 0, 0]

theorem nextHandle_noneExt (arm : (w : WhyNoDelegation) × w.Arm) (fh : Bytes) :
    (∃ rest, nextHandle (DelegType41.format.write ⟨.NONE_EXT, arm⟩ ++ getfhResult fh)
      = .ok (⟨fh⟩, rest)) ↔ Coincides ⟨.NONE_EXT, arm⟩ fh := by
  obtain ⟨w, arm⟩ := arm
  -- a reason without a body: the opcode of GETFH is in the place of the status
  have hvoid : ∀ (w : WhyNoDelegation) (arm : w.Arm), w ≠ .CONTENTION → w ≠ .RESOURCE →
      DelegType41.format.write ⟨.NONE_EXT, ⟨w, arm⟩⟩ = word 3 ++ word w.code →
      ((∃ rest, nextHandle (DelegType41.format.write ⟨.NONE_EXT, ⟨w, arm⟩⟩ ++ getfhResult fh)
        = .ok (⟨fh⟩, rest)) ↔ Coincides ⟨.NONE_EXT, ⟨w, arm⟩⟩ fh) := by
    intro w arm h₁ h₂ hwrite
    have hthrow : nextHandle (word 3 ++ (word w.code ++ getfhResult fh))
        = .error (.nfs4Error 10 "GETFH") :=
      (nextHandle_other (by decide) (by decide) _).trans
        (decodeGetfhResult_throws w.code (by decide) _)
    rw [hwrite, List.append_assoc, hthrow]
    constructor
    · rintro ⟨rest, h⟩
      cases h
    · rintro ⟨h | h, -⟩
      · cases h
        exact absurd rfl h₁
      · cases h
        exact absurd rfl h₂
  -- a reason with a flag, which is in that place itself
  have hflag : ∀ (code : UInt32) (flag : Bool),
      (∃ rest, nextHandle ((word 3 ++ (word code ++ Xdr.bool flag)) ++ getfhResult fh)
        = .ok (⟨fh⟩, rest)) ↔ flag = false ∧ fh = [0, 0, 0, 0, 0, 0, 0, 10, 0, 0] := by
    intro code flag
    rw [List.append_assoc, List.append_assoc, nextHandle_other (by decide) (by decide)]
    cases flag with
    | false => exact (decodeGetfhResult_misread code fh).trans (and_iff_right rfl).symm
    | true =>
      have hthrow := decodeGetfhResult_throws code (by decide : (1 : UInt32) ≠ 0) (getfhResult fh)
      constructor
      · rintro ⟨rest, h⟩
        exact nomatch hthrow.symm.trans h
      · exact fun h => nomatch h.1
  cases w with
  | CONTENTION =>
    refine (hflag 1 arm).trans (and_congr_left fun _ => ?_)
    simp
  | RESOURCE =>
    refine (hflag 2 arm).trans (and_congr_left fun _ => ?_)
    simp
  | NOT_WANTED => exact hvoid _ arm (by decide) (by decide) rfl
  | NOT_SUPP_FTYPE => exact hvoid _ arm (by decide) (by decide) rfl
  | WRITE_DELEG_NOT_SUPP_FTYPE => exact hvoid _ arm (by decide) (by decide) rfl
  | NOT_SUPP_UPGRADE => exact hvoid _ arm (by decide) (by decide) rfl
  | NOT_SUPP_DOWNGRADE => exact hvoid _ arm (by decide) (by decide) rfl
  | CANCELLED => exact hvoid _ arm (by decide) (by decide) rfl
  | IS_DIR => exact hvoid _ arm (by decide) (by decide) rfl

/-! ### The reply to an OPEN in a session -/

/-- The reply to the COMPOUND of `do_open`, as far as the attributes that OPEN has set: the SEQUENCE,
the setting of the directory and the OPEN have succeeded. -/
structure OpenReply where
  header : CompoundHeader
  success : header.status = 0
  sequence : Op.SEQUENCE.Res
  stateid : Stateid4
  cinfo : ChangeInfo
  rflags : UInt32
  attrset : List UInt32
  length_attrset : attrset.length < 2 ^ 32

namespace OpenReply

/-- The reply with `tail` from the type of the delegation on. -/
def bytes (reply : OpenReply) (dir : Nfs4Fh) (tail : Bytes) : Bytes :=
  reply.header.bytes ++ (ResOp.format.write ⟨.SEQUENCE, reply.sequence⟩ ++
    (word (fhOp dir).1.code ++ (word 0 ++ (word Op.OPEN.code ++ (word 0 ++
      (reply.stateid.wire ++ (Wire.changeInfo4.write reply.cinfo ++ (word reply.rflags ++
        (Wire.bitmap4.write reply.attrset ++ tail)))))))))

/-- The reply is decoded up to the delegation, and goes on with what is behind it. -/
theorem decode_eq (reply : OpenReply) (dir : Nfs4Fh) (name : Bytes) (share_access : UInt32)
    (create : Bool) (clientid : UInt64) (seqid : UInt32) (tail : Bytes) :
    (Nfs41Client.openFile dir name share_access create clientid seqid).decode
        (reply.bytes dir tail)
      = (nextHandle tail).map fun x => ((⟨reply.stateid, reply.rflags⟩, x.1), x.2) := by
  -- the decoder, cut behind the attributes that were set
  have hbody : decodeOpenResults = (do
      checkOpStatus OP_PUTFH "PUTFH"
      opStatus "OPEN"
      let stateid ← decodeStateid4
      skipChangeInfo4
      let rflags ← getUint32
      let bm_size ← getUint32
      skipUint32s bm_size
      (fun fh => ((⟨stateid, rflags⟩ : Open4Result), fh)) <$> nextHandle) := by
    unfold decodeOpenResults decodeOpenResult nextHandle decodePutfhResult
    simp only [bind_assoc, pure_bind, map_eq_pure_bind]
  have hattrset : Wire.bitmap4.write reply.attrset ++ tail
      = word (UInt32.ofNat reply.attrset.length) ++ (reply.attrset.flatMap word ++ tail) :=
    List.append_assoc _ _ _
  change (do checkCompoundStatus; decodeSequence41Result; decodeOpenResults) _ = _
  unfold OpenReply.bytes
  rw [reply.header.bind_eq, if_pos reply.success,
    bind_of_ok (decodeSequence41Result_reads reply.sequence _), hbody, hattrset]
  -- field by field, up to the type of the delegation
  refine (bind_of_ok (a := ()) (opStatus_ok.mpr ⟨_, rfl⟩)).trans <|
    (bind_of_ok (a := ()) (opStatus_ok.mpr ⟨_, rfl⟩)).trans <|
    (bind_of_ok (decodeStateid4_reads reply.stateid _)).trans <|
    (bind_of_ok (skipChangeInfo4_reads reply.cinfo _)).trans <|
    (bind_of_ok (getUint32_reads reply.rflags _)).trans <|
    (bind_of_ok (getUint32_reads _ _)).trans <|
    (bind_of_ok (skipUint32s_reads reply.length_attrset tail)).trans ?_
  rfl

/-- What `do_open` makes of the reply, given what is read behind the attributes. -/
def outcome (reply : OpenReply) (seqid : UInt32) (next : Except Exn (Nfs4Fh × Bytes)) :
    Except Exn Nfs4File :=
  next.bind fun (fh, _) =>
    if reply.rflags &&& OPEN4_RESULT_CONFIRM ≠ 0 then
      .error (.runtimeError "NFSv4.1 server set OPEN4_RESULT_CONFIRM — protocol error")
    else .ok ⟨fh, reply.stateid, seqid⟩

theorem exec_doOpen (reply : OpenReply) {c : Nfs41Client} {dir : Nfs4Fh} {name : Bytes}
    {share_access : UInt32} {create : Bool} {tail : Bytes} {r : Received} (fuel : ℕ)
    (hr : r.bind parseReply = .ok (reply.bytes dir tail)) :
    (Nfs41Client.doOpen (fuel + 1) dir name share_access create).exec c [r]
      = (some (reply.outcome (c.open_seqid_ + 1) (nextHandle tail), c.opened.sent), []) := by
  have hverdict : openVerdict r = .ok (some (reply.bytes dir tail)) :=
    openVerdict_of_status_ok hr (reply.header.reads reply.success _)
  rw [Nfs41Client.exec_doOpen_decode hverdict fuel, reply.decode_eq]
  unfold outcome
  cases nextHandle tail <;> rfl

end OpenReply

/-! ### The arms -/

/-- The bytes begin with the result of a successful GETFH, under any opcode. -/
def BeginsWithHandle (bs : Bytes) : Prop :=
  ∃ (code : UInt32) (fh pad rest : Bytes), fh.length < 2 ^ 32 ∧ pad.length = padLen fh.length ∧
    bs = word code ++ (word 0 ++ (word (UInt32.ofNat fh.length) ++ (fh ++ (pad ++ rest))))

theorem beginsWithHandle_iff {bs : Bytes} :
    BeginsWithHandle bs ↔ ∃ x, decodeGetfhResult bs = .ok x := by
  constructor
  · rintro ⟨code, fh, pad, rest, hlen, hpad, hbs⟩
    exact ⟨(⟨fh⟩, rest), decodeGetfhResult_ok.mpr ⟨code, pad, hlen, hpad, hbs⟩⟩
  · rintro ⟨⟨fh, rest⟩, h⟩
    obtain ⟨code, pad, hlen, hpad, hbs⟩ := decodeGetfhResult_ok.mp h
    exact ⟨code, fh.data, pad, rest, hlen, hpad, hbs⟩

/-- A reply without the flag of OPEN_CONFIRM opens the file whose handle is read. -/
theorem OpenReply.outcome_ok_iff {reply : OpenReply} {seqid : UInt32}
    (hflags : reply.rflags &&& OPEN4_RESULT_CONFIRM = 0) {next : Except Exn (Nfs4Fh × Bytes)}
    {f : Nfs4File} :
    reply.outcome seqid next = .ok f ↔
      (∃ rest, next = .ok (f.fh, rest)) ∧ f.stateid = reply.stateid ∧ f.seqid = seqid := by
  unfold OpenReply.outcome
  cases next with
  | error e => simp [Except.bind]
  | ok x =>
    obtain ⟨fh, rest⟩ := x
    obtain ⟨fh', stateid, seqid'⟩ := f
    simp only [Except.bind]
    rw [if_neg (not_not.mpr hflags)]
    simp only [Except.ok.injEq, Nfs4File.mk.injEq, Prod.mk.injEq, exists_eq_right']
    tauto

theorem OpenReply.outcome_error_iff {reply : OpenReply} {seqid : UInt32}
    {next : Except Exn (Nfs4Fh × Bytes)} :
    (∃ e, reply.outcome seqid next = .error e) ↔
      reply.rflags &&& OPEN4_RESULT_CONFIRM ≠ 0 ∨ ¬ ∃ x, next = .ok x := by
  unfold OpenReply.outcome
  cases next with
  | error e => simp [Except.bind]
  | ok x =>
    simp only [Except.bind]
    by_cases hflags : reply.rflags &&& OPEN4_RESULT_CONFIRM = 0
    · rw [if_neg (not_not.mpr hflags)]
      simp [hflags]
    · rw [if_pos hflags]
      simp [hflags]

section Arms

variable (c : Nfs41Client) (fuel : ℕ) (dir : Nfs4Fh) (name : Bytes) (share_access : UInt32)
  (create : Bool)

/-- `do_open` returns the file when it receives `r`. -/
def Nfs41Client.Opens (r : Received) (f : Nfs4File) : Prop :=
  ∃ c', (Nfs41Client.doOpen (fuel + 1) dir name share_access create).exec c [r]
    = (some (.ok f, c'), [])

/-- `do_open` throws when it receives `r`. -/
def Nfs41Client.OpenThrows (r : Received) : Prop :=
  ∃ e c', (Nfs41Client.doOpen (fuel + 1) dir name share_access create).exec c [r]
    = (some (.error e, c'), [])

/-- **The arms of the delegation.** On a conforming reply `do_open` returns the stateid of the OPEN and
the handle of the GETFH exactly when the arm is not NONE_EXT, or the handle is the one that the
misreading of a NONE_EXT with a flag that is off comes to. On a reply with a type of delegation that
does not exist it throws exactly when it is asked for a confirmation or the bytes behind the type do
not look like the result of a GETFH. -/
theorem delegation_arms_iff (reply : OpenReply) (r : Received) :
    (∀ d fh, DelegType41.format.Fits d → fh.length < 2 ^ 32 →
      reply.rflags &&& OPEN4_RESULT_CONFIRM = 0 →
      r.bind parseReply = .ok (reply.bytes dir (DelegType41.format.write d ++ getfhResult fh)) →
      ((∃ f, Nfs41Client.Opens c fuel dir name share_access create r f ∧
          f.stateid = reply.stateid ∧ f.fh = ⟨fh⟩) ↔
        d.1 ≠ .NONE_EXT ∨ Coincides d fh)) ∧
    ∀ w rest, 3 < w.toNat → r.bind parseReply = .ok (reply.bytes dir (word w ++ rest)) →
      (Nfs41Client.OpenThrows c fuel dir name share_access create r ↔
        reply.rflags &&& OPEN4_RESULT_CONFIRM ≠ 0 ∨ ¬ BeginsWithHandle rest) := by
  constructor
  · intro d fh hd hfh hflags hr
    -- all that is left to say is what the next handle is
    have hopens : (∃ f, Nfs41Client.Opens c fuel dir name share_access create r f ∧
        f.stateid = reply.stateid ∧ f.fh = ⟨fh⟩) ↔
        ∃ rest, nextHandle (DelegType41.format.write d ++ getfhResult fh) = .ok (⟨fh⟩, rest) := by
      unfold Nfs41Client.Opens
      rw [reply.exec_doOpen fuel hr]
      constructor
      · rintro ⟨f, ⟨c', hf⟩, -, hfh'⟩
        have hok : reply.outcome (c.open_seqid_ + 1) (nextHandle _) = .ok f :=
          (Prod.mk.inj (Option.some.inj (Prod.mk.inj hf).1)).1
        obtain ⟨hnext, -⟩ := (OpenReply.outcome_ok_iff hflags).mp hok
        rwa [hfh'] at hnext
      · intro hnext
        have hok : reply.outcome (c.open_seqid_ + 1)
            (nextHandle (DelegType41.format.write d ++ getfhResult fh))
            = .ok ⟨⟨fh⟩, reply.stateid, c.open_seqid_ + 1⟩ :=
          (OpenReply.outcome_ok_iff hflags).mpr ⟨hnext, rfl, rfl⟩
        exact ⟨_, ⟨_, by rw [hok]⟩, rfl, rfl⟩
    rw [hopens]
    obtain ⟨t, arm⟩ := d
    by_cases ht : t = .NONE_EXT
    · subst ht
      rw [nextHandle_noneExt arm fh]
      exact ⟨Or.inr, fun h => h.resolve_left fun hne => hne rfl⟩
    · exact ⟨fun _ => Or.inl ht, fun _ => ⟨[], nextHandle_known hd ht hfh⟩⟩
  · intro w rest hw hr
    -- a type above 3 is neither READ nor WRITE, and is passed over like NONE
    have h₁ : w ≠ 1 := by
      rintro rfl
      exact absurd hw (by decide)
    have h₂ : w ≠ 2 := by
      rintro rfl
      exact absurd hw (by decide)
    rw [beginsWithHandle_iff, ← nextHandle_other h₁ h₂, ← OpenReply.outcome_error_iff]
    unfold Nfs41Client.OpenThrows
    rw [reply.exec_doOpen fuel hr]
    constructor
    · rintro ⟨e, c', he⟩
      exact ⟨e, (Prod.mk.inj (Option.some.inj (Prod.mk.inj he).1)).1⟩
    · rintro ⟨e, he⟩
      exact ⟨e, _, by rw [he]⟩

end Arms

/-- A reply to the OPEN of a file in the root directory. -/
def contended : OpenReply where
  header := ⟨0, [], [], 4, by decide, rfl⟩
  success := rfl
  sequence := ⟨Octets.zero 16, 3, 0, 0, 0, 0⟩
  stateid := ⟨1, Octets.zero 12⟩
  cinfo := (true, 4, 5)
  rflags := 4
  attrset := []
  length_attrset := by decide

/-- The reply with `tail` from the type of the delegation on, in an accepted REPLY. -/
def contendedRecord (tail : Bytes) : Received :=
  .ok (acceptedHeader 1 0 [] ++ contended.bytes ⟨[]⟩ tail)

theorem parse_contendedRecord (tail : Bytes) :
    (contendedRecord tail).bind parseReply = .ok (contended.bytes ⟨[]⟩ tail) :=
  parseReply_accepted 1 0 (by decide) _

/-- NONE_EXT for contention, with the flag off, and an unknown type of delegation. -/
theorem delegation_arms_contended :
    ((∃ f, Nfs41Client.Opens Nfs41Client.fresh 0 ⟨[]⟩ [97] 1 false
        (contendedRecord (DelegType41.format.write ⟨.NONE_EXT, ⟨.CONTENTION, false⟩⟩ ++
          getfhResult [9, 9, 9, 9])) f ∧
        f.stateid = contended.stateid ∧ f.fh = ⟨[9, 9, 9, 9]⟩) ↔
      DelegType41.NONE_EXT ≠ .NONE_EXT ∨
        Coincides ⟨.NONE_EXT, ⟨.CONTENTION, false⟩⟩ [9, 9, 9, 9]) ∧
    (Nfs41Client.OpenThrows Nfs41Client.fresh 0 ⟨[]⟩ [97] 1 false
        (contendedRecord (word 4 ++ getfhResult [9])) ↔
      contended.rflags &&& OPEN4_RESULT_CONFIRM ≠ 0 ∨ ¬ BeginsWithHandle (getfhResult [9])) :=
  ⟨(delegation_arms_iff Nfs41Client.fresh 0 ⟨[]⟩ [97] 1 false contended _).1
      ⟨.NONE_EXT, ⟨.CONTENTION, false⟩⟩ [9, 9, 9, 9] trivial (by decide) (by decide)
      (parse_contendedRecord _),
    (delegation_arms_iff Nfs41Client.fresh 0 ⟨[]⟩ [97] 1 false contended _).2 4 (getfhResult [9])
      (by decide) (parse_contendedRecord _)⟩

/-- The file of the first of these replies: ten bytes of the GETFH result for a handle. -/
theorem contention_misread :
    DelegType41.format.Fits ⟨.NONE_EXT, ⟨.CONTENTION, false⟩⟩ ∧
    contended.rflags &&& OPEN4_RESULT_CONFIRM = 0 ∧
    Nfs41Client.Opens Nfs41Client.fresh 0 ⟨[]⟩ [97] 1 false
      (contendedRecord (DelegType41.format.write ⟨.NONE_EXT, ⟨.CONTENTION, false⟩⟩ ++
        getfhResult [9, 9, 9, 9])) ⟨⟨[0, 0, 0, 0, 0, 0, 0, 4, 9, 9]⟩, contended.stateid, 1⟩ ∧
    ¬ ∃ f, Nfs41Client.Opens Nfs41Client.fresh 0 ⟨[]⟩ [97] 1 false
      (contendedRecord (DelegType41.format.write ⟨.NONE_EXT, ⟨.CONTENTION, false⟩⟩ ++
        getfhResult [9, 9, 9, 9])) f ∧ f.stateid = contended.stateid ∧ f.fh = ⟨[9, 9, 9, 9]⟩ := by
  have hexec : (Nfs41Client.doOpen 1 ⟨[]⟩ [97] 1 false).exec Nfs41Client.fresh
      [contendedRecord (DelegType41.format.write ⟨.NONE_EXT, ⟨.CONTENTION, false⟩⟩ ++
        getfhResult [9, 9, 9, 9])]
      = (some (contended.outcome (Nfs41Client.fresh.open_seqid_ + 1) (nextHandle
          (DelegType41.format.write ⟨.NONE_EXT, ⟨.CONTENTION, false⟩⟩ ++ getfhResult [9, 9, 9, 9])),
        Nfs41Client.fresh.opened.sent), []) :=
    contended.exec_doOpen 0 (parse_contendedRecord _)
  -- the reason and the flag of the NONE_EXT are taken for the head of the GETFH
  have hread : contended.outcome (Nfs41Client.fresh.open_seqid_ + 1) (nextHandle
      (DelegType41.format.write ⟨.NONE_EXT, ⟨.CONTENTION, false⟩⟩ ++ getfhResult [9, 9, 9, 9]))
      = .ok ⟨⟨[0, 0, 0, 0, 0, 0, 0, 4, 9, 9]⟩, contended.stateid, 1⟩ := by
    refine (OpenReply.outcome_ok_iff (by decide)).mpr ⟨⟨[], ?_⟩, rfl, rfl⟩
    exact (nextHandle_other (by decide) (by decide) _).trans
      (decodeGetfhResult_ok.mpr ⟨1, [9, 9], by decide, rfl, rfl⟩)
  rw [hread] at hexec
  refine ⟨trivial, by decide, ⟨_, hexec⟩, ?_⟩
  rintro ⟨f, ⟨c', hf⟩, -, hfh⟩
  rw [hexec] at hf
  cases hf
  exact absurd hfh (by decide)

end NfsClient
