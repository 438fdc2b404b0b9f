import NfsClient.Nfs3.Replies

/-!
# NFSv3 failures cut short

On a status other than 0 the body of a result is of no use to the client, and half of the decoders do
not look at it. The other half step over its attributes first, as they would on the status 0, and
throw from behind them; when the attributes are not all there, what leaves the decoder is the
underflow and the status is lost. `failures_typed_iff` says for which bytes behind the status the
failure is an `NfsError`.

What makes it exact is that a block of attributes is a flag and, under the flag, a number of bytes
that depends on nothing (`Sized`): a decoder that steps over blocks succeeds on the bytes that hold
them and underflows on all others (`Skips`).
-/

namespace NfsClient

open Xdr Reader

/-! ### Readers of a fixed size -/

/-- `p` takes `n` bytes, whatever they are, and underflows when there are fewer. -/
def Sized {α : Type} (p : XdrDecoder α) (n : ℕ) : Prop :=
  ∀ bs, (n ≤ bs.length ∧ ∃ a, p bs = .ok (a, bs.drop n)) ∨
    (bs.length < n ∧ p bs = .error underflow)

section Sized

variable {α β : Type}

theorem Sized.pure (a : α) : Sized (Pure.pure a) 0 :=
  fun _ => Or.inl ⟨Nat.zero_le _, a, rfl⟩

theorem Sized.bind {p : XdrDecoder α} {f : α → XdrDecoder β} {n m : ℕ} (hp : Sized p n)
    (hf : ∀ a, Sized (f a) m) : Sized (p >>= f) (n + m) := by
  intro bs
  rcases hp bs with ⟨hn, a, ha⟩ | ⟨hn, he⟩
  · rw [bind_of_ok ha]
    rcases hf a (bs.drop n) with ⟨hm, b, hb⟩ | ⟨hm, he⟩
    · rw [List.length_drop] at hm
      rw [List.drop_drop] at hb
      exact Or.inl ⟨by omega, b, hb⟩
    · rw [List.length_drop] at hm
      exact Or.inr ⟨by omega, he⟩
  · exact Or.inr ⟨by omega, bind_error.mpr (Or.inl he)⟩

theorem sized_getUint32 : Sized getUint32 4 := by
  intro bs
  by_cases h : 4 ≤ bs.length
  · refine Or.inl ⟨h, assemble32 (bs.take 4), ?_⟩
    have hreq : require 4 bs = .ok ((), bs) := if_neg (by omega)
    exact bind_of_ok hreq
  · have hreq : require 4 bs = .error underflow := if_pos (by omega)
    exact Or.inr ⟨by omega, bind_error.mpr (Or.inl hreq)⟩

theorem sized_getUint64 : Sized getUint64 8 :=
  sized_getUint32.bind fun _ => sized_getUint32.bind fun _ => .pure _

theorem sized_times {p : XdrDecoder α} {n : ℕ} (hp : Sized p n) :
    ∀ k, Sized (times p k) (k * n)
  | 0 => by
    rw [Nat.zero_mul]
    exact .pure []
  | k + 1 => by
    have hloop : Sized (times p (k + 1)) (n + (k * n + 0)) :=
      hp.bind fun _ => (sized_times hp k).bind fun _ => .pure _
    have hsize : n + (k * n + 0) = (k + 1) * n := by ring
    rwa [hsize] at hloop

/-- Twenty-one words. -/
theorem sized_decodeFattr3 : Sized decodeFattr3 84 :=
  sized_getUint32.bind fun _ => sized_getUint32.bind fun _ => sized_getUint32.bind fun _ =>
  sized_getUint32.bind fun _ => sized_getUint32.bind fun _ => sized_getUint64.bind fun _ =>
  sized_getUint64.bind fun _ => sized_getUint32.bind fun _ => sized_getUint32.bind fun _ =>
  sized_getUint64.bind fun _ => sized_getUint64.bind fun _ => sized_getUint32.bind fun _ =>
  sized_getUint32.bind fun _ => sized_getUint32.bind fun _ => sized_getUint32.bind fun _ =>
  sized_getUint32.bind fun _ => sized_getUint32.bind fun _ => .pure _

end Sized

/-! ### Blocks under a flag -/

/-- The size of a block at the front of the input: a flag word and, unless the word is 0, `n`
bytes. -/
def blockSize (n : ℕ) (bs : Bytes) : ℕ := 4 + if bs.take 4 = word 0 then 0 else n

/-- The bytes behind a sequence of blocks, if the blocks are all there. -/
def behindBlocks : List ℕ → Bytes → Option Bytes
  | [], bs => some bs
  | n :: ns, bs =>
    if bs.length < blockSize n bs then none else behindBlocks ns (bs.drop (blockSize n bs))

/-- `p` steps over the blocks and underflows when they are not all there. -/
def Skips (p : XdrDecoder Unit) (ns : List ℕ) : Prop :=
  ∀ bs, p bs = match behindBlocks ns bs with
    | some rest => .ok ((), rest)
    | none => .error underflow

theorem behindBlocks_append (ns ms : List ℕ) (bs : Bytes) :
    behindBlocks (ns ++ ms) bs = (behindBlocks ns bs).bind (behindBlocks ms) := by
  induction ns generalizing bs with
  | nil => rfl
  | cons n ns ih =>
    rw [List.cons_append, behindBlocks, behindBlocks]
    split
    · rfl
    · exact ih _

theorem Skips.bind {p q : XdrDecoder Unit} {ns ms : List ℕ} (hp : Skips p ns) (hq : Skips q ms) :
    Skips (do p; q) (ns ++ ms) := by
  intro bs
  have hp := hp bs
  rw [behindBlocks_append]
  cases hns : behindBlocks ns bs with
  | none =>
    rw [hns] at hp
    exact bind_error.mpr (Or.inl hp)
  | some mid =>
    rw [hns] at hp
    rw [bind_of_ok hp]
    exact hq mid

/-- A flag, and what `p` takes under it. -/
theorem skips_flagged {α : Type} {p : XdrDecoder α} {n : ℕ} (hp : Sized p n) :
    Skips (do
      let follows ← getUint32
      if follows ≠ 0 then
        let _attrs ← p) [n] := by
  intro bs
  rw [behindBlocks]
  rcases sized_getUint32 bs with ⟨h₄, flag, hflag⟩ | ⟨h₄, he⟩
  -- the four bytes that are there decide how many more are wanted
  · have htake : bs.take 4 = word flag := by
      rw [getUint32_ok.mp hflag]
      exact List.take_left' (length_word flag)
    rw [bind_of_ok hflag]
    by_cases hzero : flag = 0
    · have hsize : blockSize n bs = 4 := by rw [blockSize, htake, hzero, if_pos rfl]
      rw [if_neg (c := flag ≠ 0) (not_not.mpr hzero), hsize, if_neg (Nat.not_lt.mpr h₄)]
      rfl
    · have hsize : blockSize n bs = 4 + n := by
        have hword : word flag ≠ word 0 := fun h => hzero (word_injective h)
        rw [blockSize, htake, if_neg hword]
      rw [if_pos (c := flag ≠ 0) hzero, hsize]
      rcases hp (bs.drop 4) with ⟨hn, a, ha⟩ | ⟨hn, he⟩
      · rw [List.length_drop] at hn
        rw [List.drop_drop] at ha
        rw [if_neg (by omega)]
        exact bind_of_ok ha
      · rw [List.length_drop] at hn
        rw [if_pos (by omega)]
        exact bind_error.mpr (Or.inl he)
  · have hshort : bs.length < blockSize n bs := Nat.lt_of_lt_of_le h₄ (Nat.le_add_right 4 _)
    rw [if_pos hshort]
    exact bind_error.mpr (Or.inl he)

namespace Nfs3

theorem skips_postOpAttr : Skips skipPostOpAttr [84] := skips_flagged sized_decodeFattr3

theorem skips_preOpAttr : Skips skipPreOpAttr [24] := skips_flagged (sized_times sized_getUint32 6)

theorem skips_wccData : Skips skipWccData [24, 84] := skips_preOpAttr.bind skips_postOpAttr

/-! ### The decoders -/

/-- The blocks that the decoder of a call steps over before it looks at the status. -/
def Call.blocksBefore : Call → List ℕ
  | .getattr .. | .lookup .. | .create .. | .createExclusive .. | .mkdir .. | .symlink ..
  | .mknodFifo .. | .mknodSocket .. | .mknodChr .. | .mknodBlk .. | .remove .. | .rmdir .. => []
  | .access .. | .readlink .. | .read .. | .readdirPage .. | .readdirplusPage .. | .fsstat ..
  | .fsinfo .. | .pathconf .. => [84]
  | .setattr .. | .write .. | .commit .. => [24, 84]
  | .rename .. => [24, 84, 24, 84]
  | .link .. => [84, 24, 84]

section

variable {α : Type} {name : String} {skip : XdrDecoder Unit} {f : XdrDecoder α} {status : UInt32}
  {ns : List ℕ} {bs : Bytes}

/-- What comes of a failure whose status is judged behind the blocks `ns`. -/
def failure (status : UInt32) (name : String) (ns : List ℕ) (bs : Bytes) : Exn :=
  if (behindBlocks ns bs).isSome then .nfsError status name else underflow

theorem fails_behind (hs : status ≠ 0) (hskip : Skips skip ns) :
    (do let s ← getUint32; skip; throwIf (s ≠ 0) (.nfsError s name); f) (word status ++ bs)
      = .error (failure status name ns bs) := by
  have hbs := hskip bs
  rw [bind_of_ok (getUint32_reads status bs), failure]
  cases h : behindBlocks ns bs with
  | none =>
    rw [h] at hbs
    exact bind_error.mpr (Or.inl hbs)
  | some rest =>
    rw [h] at hbs
    exact (bind_of_ok hbs).trans (throwIf_bind_error hs)

theorem fails_last (hs : status ≠ 0) (hskip : Skips skip ns) :
    (do let s ← getUint32; skip; throwIf (s ≠ 0) (.nfsError s name)) (word status ++ bs)
      = .error (failure status name ns bs) := by
  have hbs := hskip bs
  rw [bind_of_ok (getUint32_reads status bs), failure]
  cases h : behindBlocks ns bs with
  | none =>
    rw [h] at hbs
    exact bind_error.mpr (Or.inl hbs)
  | some rest =>
    rw [h] at hbs
    exact (bind_of_ok hbs).trans (throwIf_error hs)

end

/-- A failure is an `NfsError` or an underflow, by what is behind its status. -/
theorem Call.decodeReply_failure (c : Call) {status : UInt32} (hs : status ≠ 0) (rest : Bytes) :
    c.decodeReply (word status ++ rest)
      = .error (failure status c.proc.name c.blocksBefore rest) := by
  cases c with
  -- the status is judged at once
  | getattr fh => exact throws_at_once hs
  | lookup dir name => exact throws_at_once hs
  | create dir name mode hmode attrs => exact throws_at_once hs
  | createExclusive dir name verf => exact throws_at_once hs
  | mkdir dir name attrs => exact throws_at_once hs
  | symlink dir name target attrs => exact throws_at_once hs
  | mknodFifo dir name attrs => exact throws_at_once hs
  | mknodSocket dir name attrs => exact throws_at_once hs
  | mknodChr dir name attrs spec => exact throws_at_once hs
  | mknodBlk dir name attrs spec => exact throws_at_once hs
  | remove dir name => exact throws_at_once hs
  | rmdir dir name => exact throws_at_once hs
  -- behind a `post_op_attr`
  | access fh access_mask => exact fails_behind hs skips_postOpAttr
  | readlink symlink_fh => exact fails_behind hs skips_postOpAttr
  | read fh offset count => exact fails_behind hs skips_postOpAttr
  | readdirPage dir cookie cookieverf count => exact fails_behind hs skips_postOpAttr
  | readdirplusPage dir cookie cookieverf dircount maxcount =>
    exact fails_behind hs skips_postOpAttr
  | fsstat root => exact fails_behind hs skips_postOpAttr
  | fsinfo root => exact fails_behind hs skips_postOpAttr
  | pathconf fh => exact fails_behind hs skips_postOpAttr
  -- behind a `wcc_data`
  | setattr fh attrs guard => exact fails_last hs skips_wccData
  | write fh offset stable data => exact fails_behind hs skips_wccData
  | commit fh offset count => exact fails_behind hs skips_wccData
  -- behind two blocks
  | rename from_dir from_name to_dir to_name =>
    refine Eq.trans ?_ (fails_last hs (skips_wccData.bind skips_wccData))
    simp only [bind_assoc]
    rfl
  | link file link_dir link_name =>
    refine Eq.trans ?_ (fails_last hs (skips_postOpAttr.bind skips_wccData))
    simp only [bind_assoc]
    rfl

/-- **When a failure is typed.** On a status other than 0 a decoder throws `NfsError` with that status
exactly when the blocks that it steps over are all there. -/
theorem failures_typed_iff (c : Call) {status : UInt32} (hs : status ≠ 0) (rest : Bytes) :
    (∃ proc, c.decodeReply (word status ++ rest) = .error (.nfsError status proc)) ↔
      (behindBlocks c.blocksBefore rest).isSome := by
  rw [c.decodeReply_failure hs rest]
  unfold failure
  split
  · next h => exact ⟨fun _ => h, fun _ => ⟨_, rfl⟩⟩
  · next h =>
    constructor
    · rintro ⟨proc, hproc⟩
      exact absurd (Except.error.inj hproc) (by simp [underflow])
    · exact fun h' => absurd h' h

/-- RENAME that fails with the attributes of the first directory only. -/
theorem rename_failure_typed_iff :
    (∃ proc, (Call.rename ⟨[]⟩ [97] ⟨[]⟩ [98]).decodeReply (word 66 ++ (word 0 ++ word 0))
        = .error (.nfsError 66 proc)) ↔
      (behindBlocks [24, 84, 24, 84] (word 0 ++ word 0)).isSome :=
  failures_typed_iff (.rename ⟨[]⟩ [97] ⟨[]⟩ [98]) (by decide) (word 0 ++ word 0)

/-- READ that fails with a status and nothing behind it. -/
theorem read_failure_cut_short :
    ¬ ∀ (c : Call) (status : UInt32) (rest : Bytes), status ≠ 0 →
      ∃ proc, c.decodeReply (word status ++ rest) = .error (.nfsError status proc) := by
  intro h
  obtain ⟨proc, hproc⟩ := h (.read ⟨[]⟩ 0 0) 70 [] (by decide)
  have hread : (Call.read ⟨[]⟩ 0 0).decodeReply (word 70 ++ []) = .error underflow := rfl
  rw [hread] at hproc
  cases hproc

end Nfs3

end NfsClient
