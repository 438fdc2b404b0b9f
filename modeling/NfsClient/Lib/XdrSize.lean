import NfsClient.Lib.XdrGrammar

/-!
# How long an encoding is

`Measured f size` gives the number of bytes that the encoding of a value has in the format `f`. With
it comes the reason why a value has an encoding at all: every count in an encoding counts bytes that
are there, or items of at least one byte, so that a value whose encoding has fewer than `2 ^ 32`
bytes has no count that is too large.

There is one rule for each constructor of formats. A format assembled from them is measured by the
same assembly of the rules.
-/

namespace Xdr

/-- The size of an opaque of `n` bytes: its count, the bytes and their padding. -/
def opaqueSize (n : ℕ) : ℕ := 4 + (n + padLen n)

theorem le_opaqueSize (n : ℕ) : n + 4 ≤ opaqueSize n := by
  unfold opaqueSize
  omega

namespace Format

variable {α β κ : Type} {f : Format α} {g : Format β} {s : α → ℕ} {t : β → ℕ}

/-- The size of every encoding, and that a short enough one can be read back. -/
structure Measured (f : Format α) (size : α → ℕ) : Prop where
  length_write : ∀ a, (f.write a).length = size a
  fits : ∀ a, size a < 2 ^ 32 → f.Fits a

namespace Measured

theorem congr {s' : α → ℕ} (h : Measured f s) (hs : ∀ a, s a = s' a) : Measured f s' :=
  (funext hs : s = s') ▸ h

/-! ### Basic types -/

theorem word : Measured word fun _ => 4 := ⟨length_word, fun _ _ => trivial⟩

theorem hyper : Measured hyper fun _ => 8 := ⟨length_hyper, fun _ _ => trivial⟩

theorem bool : Measured bool fun _ => 4 := ⟨length_bool, fun _ _ => trivial⟩

theorem literal (w : UInt32) : Measured (literal w) fun _ => 4 :=
  ⟨fun _ => length_word w, fun _ _ => trivial⟩

theorem void : Measured void fun _ => 0 := ⟨fun _ => rfl, fun _ _ => trivial⟩

theorem octets (n : ℕ) : Measured (octets n) fun _ => n + padLen n := by
  refine ⟨fun x => ?_, fun _ _ => trivial⟩
  have hlen : x.1.length = n := x.2
  exact (length_fixedOpaque x.1).trans (by rw [hlen])

theorem bytes : Measured bytes fun x => opaqueSize x.length := by
  refine ⟨length_varOpaque, fun x hx => ?_⟩
  have hle := le_opaqueSize x.length
  change x.length < 2 ^ 32
  omega

/-! ### Composite types -/

theorem pair (hf : Measured f s) (hg : Measured g t) :
    Measured (pair f g) fun x => s x.1 + t x.2 := by
  refine ⟨fun x => ?_, fun x hx => ⟨hf.fits x.1 (by omega), hg.fits x.2 (by omega)⟩⟩
  change (f.write x.1 ++ g.write x.2).length = _
  rw [List.length_append, hf.length_write, hg.length_write]

theorem map (hf : Measured f s) (e : α ≃ β) : Measured (f.map e) fun b => s (e.symm b) :=
  ⟨fun b => hf.length_write (e.symm b), fun b => hf.fits (e.symm b)⟩

theorem length_flatMap_write (hf : Measured f s) (xs : List α) :
    (xs.flatMap f.write).length = (xs.map s).sum := by
  induction xs with
  | nil => rfl
  | cons x xs ih =>
    rw [List.flatMap_cons, List.length_append, hf.length_write, ih, List.map_cons, List.sum_cons]

theorem length_le_sum (hs : ∀ a, 0 < s a) (xs : List α) : xs.length ≤ (xs.map s).sum := by
  induction xs with
  | nil => exact Nat.le_refl 0
  | cons x xs ih =>
    have hx := hs x
    rw [List.length_cons, List.map_cons, List.sum_cons]
    omega

theorem le_sum_of_mem {xs : List α} {x : α} (hx : x ∈ xs) : s x ≤ (xs.map s).sum :=
  List.single_le_sum (fun _ _ => Nat.zero_le _) _ (List.mem_map_of_mem hx)

/-- Items without a byte would leave their count unbounded. -/
theorem array (hf : Measured f s) (hs : ∀ a, 0 < s a) :
    Measured (array f) fun xs => 4 + (xs.map s).sum := by
  refine ⟨fun xs => ?_, fun xs hxs => ⟨?_, fun x hx => hf.fits x ?_⟩⟩
  · change (Xdr.word _ ++ xs.flatMap f.write).length = _
    rw [List.length_append, length_word, hf.length_flatMap_write]
  · have hle := length_le_sum hs xs
    omega
  · have hle := le_sum_of_mem (s := s) hx
    omega

/-- An array of items of one size. -/
theorem array_const {n : ℕ} (hf : Measured f fun _ => n) (hn : 0 < n) :
    Measured (Format.array f) fun xs => 4 + n * xs.length :=
  (array hf fun _ => hn).congr fun xs => by
    rw [List.map_const', List.sum_replicate, smul_eq_mul, mul_comm]

theorem words : Measured (Format.array Format.word) fun ws => 4 + 4 * ws.length :=
  array_const word (by decide)

theorem union {arm : κ → Type} {code : κ → UInt32} {find : UInt32 → Option κ}
    {hfind : ∀ w k, find w = some k ↔ code k = w} {body : (k : κ) → Format (arm k)}
    {n : (k : κ) → arm k → ℕ} (h : ∀ k, Measured (body k) (n k)) :
    Measured (union code find hfind body) fun x => 4 + n x.1 x.2 := by
  refine ⟨fun x => ?_, fun x hx => (h x.1).fits x.2 (by omega)⟩
  change (Xdr.word (code x.1) ++ (body x.1).write x.2).length = _
  rw [List.length_append, length_word, (h x.1).length_write]

theorem optional (hf : Measured f s) : Measured (optional f) fun x => 4 + x.elim 0 s := by
  refine ⟨fun x => ?_, fun x hx a ha => ?_⟩
  · cases x with
    | none => exact length_bool false
    | some a =>
      change (Xdr.bool true ++ f.write a).length = _
      rw [List.length_append, length_bool, hf.length_write]
      rfl
  · subst ha
    refine hf.fits a (lt_of_le_of_lt (Nat.le_add_left (s a) 4) hx)

theorem inside (hf : Measured f s) : Measured (inside f) fun a => opaqueSize (s a) := by
  refine ⟨fun a => ?_, fun a ha => ?_⟩
  · rw [← hf.length_write a]
    exact length_varOpaque (f.write a)
  · have hle := le_opaqueSize (s a)
    refine ⟨hf.fits a (by omega), ?_⟩
    rw [hf.length_write]
    omega

end Measured

/-- A value whose encoding is short enough is read back, whatever follows it. -/
theorem Measured.reads (hf : Measured f s) {a : α} (ha : s a < 2 ^ 32) :
    Reader.Reads f.read (f.write a) a :=
  f.reads (hf.fits a ha)

end Format

end Xdr
