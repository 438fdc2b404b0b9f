import Mathlib

/-!
# Readers over a list of tokens

A reader consumes a prefix of its input and yields a value, or fails. It is a state monad
over the input that is left, stacked on `Except`, so that `do` blocks read like the imperative
decoders they stand for.

Two ways of talking about a reader are used throughout.

* `Reads p bs a` — the *forward* reading: on `bs` followed by anything, `p` yields `a` and
  leaves exactly what followed. It composes along `>>=` (`Reads.bind`), so that a round trip
  over a message is assembled from the round trips of its fields.
* `bind_ok` and its companions — the *backward* reading: what a successful run of a composite
  says about the runs of its parts.

`Accepts p E` has both at once: `E` relates a value to its encodings, of which there may be several,
and `p` accepts the inputs that begin with one of them. `Local p` says the same without naming the
encodings: what `p` has taken decides what it returns, whatever is behind it.
-/

/-- A reader of tokens `τ`: on an input it fails with `ε`, or yields a value and the input
it has not consumed. -/
abbrev Reader (τ ε α : Type) : Type := StateT (List τ) (Except ε) α

namespace Reader

variable {τ ε α β γ : Type}

/-! ### The forward reading -/

/-- On `bs` followed by any input, `p` yields `a` and leaves exactly what follows `bs`. -/
def Reads (p : Reader τ ε α) (bs : List τ) (a : α) : Prop :=
  ∀ rest, p (bs ++ rest) = .ok (a, rest)

/-- Two readers in sequence, on an input the first one accepts. -/
theorem bind_of_ok {p : Reader τ ε α} {f : α → Reader τ ε β} {bs rest : List τ} {a : α}
    (h : p bs = .ok (a, rest)) : (p >>= f) bs = f a rest := by
  change (p bs >>= fun s => f s.1 s.2) = _
  rw [h]
  rfl

theorem Reads.pure (a : α) : Reads (Pure.pure a : Reader τ ε α) [] a := fun _ => rfl

theorem Reads.bind {p : Reader τ ε α} {f : α → Reader τ ε β} {bs cs : List τ} {a : α} {b : β}
    (hp : Reads p bs a) (hf : Reads (f a) cs b) : Reads (p >>= f) (bs ++ cs) b := by
  intro rest
  rw [List.append_assoc, bind_of_ok (hp (cs ++ rest))]
  exact hf rest

/-- `Reads.bind` where the second reader consumes nothing. -/
theorem Reads.bind_nil {p : Reader τ ε α} {f : α → Reader τ ε β} {bs : List τ} {a : α} {b : β}
    (hp : Reads p bs a) (hf : Reads (f a) [] b) : Reads (p >>= f) bs b := by
  simpa using hp.bind hf

theorem Reads.map {p : Reader τ ε α} {bs : List τ} {a : α} (f : α → β) (hp : Reads p bs a) :
    Reads (f <$> p) bs (f a) := by
  intro rest
  change ((fun s : α × List τ => (f s.1, s.2)) <$> p (bs ++ rest)) = _
  rw [hp rest]
  rfl

/-- A reader that accepts a whole input leaves nothing of it. -/
theorem Reads.run {p : Reader τ ε α} {bs : List τ} {a : α} (hp : Reads p bs a) :
    p bs = .ok (a, []) := by
  have h := hp []
  rwa [List.append_nil] at h

/-! ### The backward reading -/

/-- A successful run of two readers in sequence splits at the value the first one yields. -/
theorem bind_ok {p : Reader τ ε α} {f : α → Reader τ ε β} {bs rest : List τ} {b : β} :
    (p >>= f) bs = .ok (b, rest) ↔ ∃ a mid, p bs = .ok (a, mid) ∧ f a mid = .ok (b, rest) := by
  change (p bs >>= fun s => f s.1 s.2) = _ ↔ _
  cases hp : p bs with
  | error e => simp [bind, Except.bind]
  | ok s =>
    obtain ⟨a, mid⟩ := s
    simp [bind, Except.bind]

theorem pure_ok {a b : α} {bs rest : List τ} :
    (Pure.pure a : Reader τ ε α) bs = .ok (b, rest) ↔ a = b ∧ bs = rest := by
  change Except.ok (a, bs) = _ ↔ _
  simp

theorem map_ok {p : Reader τ ε α} {f : α → β} {bs rest : List τ} {b : β} :
    (f <$> p) bs = .ok (b, rest) ↔ ∃ a, p bs = .ok (a, rest) ∧ f a = b := by
  change ((fun s : α × List τ => (f s.1, s.2)) <$> p bs) = _ ↔ _
  cases hp : p bs with
  | error e => simp [Functor.map, Except.map]
  | ok s =>
    obtain ⟨a, mid⟩ := s
    simp [Functor.map, Except.map, and_comm]

/-- The value of a run that succeeds, whatever it leaves. -/
theorem value_ok {p : Reader τ ε α} {bs : List τ} {a : α} :
    (p bs).map Prod.fst = .ok a ↔ ∃ rest, p bs = .ok (a, rest) := by
  cases p bs with
  | error e => simp [Except.map]
  | ok s =>
    obtain ⟨a', rest⟩ := s
    simp [Except.map]

theorem throw_ok {e : ε} {bs rest : List τ} {a : α} :
    ¬ (throw e : Reader τ ε α) bs = .ok (a, rest) := by
  intro h
  cases h

/-! ### Failing -/

/-- A run of two readers in sequence that fails does so in the first one or in the second one. -/
theorem bind_error {p : Reader τ ε α} {f : α → Reader τ ε β} {bs : List τ} {e : ε} :
    (p >>= f) bs = .error e ↔ p bs = .error e ∨ ∃ a mid, p bs = .ok (a, mid) ∧ f a mid = .error e := by
  change (p bs >>= fun s => f s.1 s.2) = _ ↔ _
  cases hp : p bs with
  | error e' => simp [bind, Except.bind]
  | ok s =>
    obtain ⟨a, mid⟩ := s
    simp [bind, Except.bind]

/-- Whatever the reader fails with has the property `P`. -/
def Throws (p : Reader τ ε α) (P : ε → Prop) : Prop := ∀ bs e, p bs = .error e → P e

theorem Throws.bind {p : Reader τ ε α} {f : α → Reader τ ε β} {P : ε → Prop} (hp : Throws p P)
    (hf : ∀ a, Throws (f a) P) : Throws (p >>= f) P := by
  intro bs e h
  rcases bind_error.mp h with h | ⟨a, mid, -, h⟩
  · exact hp bs e h
  · exact hf a mid e h

theorem Throws.pure {P : ε → Prop} (a : α) : Throws (Pure.pure a : Reader τ ε α) P :=
  fun _ _ h => nomatch h

/-! ### The accepted inputs -/

/-- `p` yields a value exactly on the inputs that begin with an encoding of it, and leaves what
follows. -/
def Accepts (p : Reader τ ε α) (E : α → List τ → Prop) : Prop :=
  ∀ bs rest a, p bs = .ok (a, rest) ↔ ∃ b, E a b ∧ bs = b ++ rest

theorem Accepts.ok {p : Reader τ ε α} {E : α → List τ → Prop} (hp : Accepts p E)
    {bs rest : List τ} {a : α} : p bs = .ok (a, rest) ↔ ∃ b, E a b ∧ bs = b ++ rest :=
  hp bs rest a

theorem Accepts.map {p : Reader τ ε α} {E : α → List τ → Prop} (hp : Accepts p E) (f : α → β) :
    Accepts (f <$> p) fun b x => ∃ a, f a = b ∧ E a x := by
  intro bs rest b
  rw [map_ok]
  constructor
  · rintro ⟨a, ha, rfl⟩
    obtain ⟨x, hx, rfl⟩ := hp.ok.mp ha
    exact ⟨x, ⟨a, rfl, hx⟩, rfl⟩
  · rintro ⟨x, ⟨a, rfl, hx⟩, rfl⟩
    exact ⟨a, hp.ok.mpr ⟨x, hx, rfl⟩, rfl⟩

theorem Accepts.bind {p : Reader τ ε α} {f : α → Reader τ ε β} {E : α → List τ → Prop}
    {F : α → β → List τ → Prop} (hp : Accepts p E) (hf : ∀ a, Accepts (f a) (F a)) :
    Accepts (p >>= f) fun b z => ∃ a x y, E a x ∧ F a b y ∧ z = x ++ y := by
  intro bs rest b
  rw [bind_ok]
  constructor
  · rintro ⟨a, mid, ha, hb⟩
    obtain ⟨x, hx, rfl⟩ := hp.ok.mp ha
    obtain ⟨y, hy, rfl⟩ := (hf a).ok.mp hb
    exact ⟨x ++ y, ⟨a, x, y, hx, hy, rfl⟩, (List.append_assoc x y rest).symm⟩
  · rintro ⟨z, ⟨a, x, y, hx, hy, rfl⟩, rfl⟩
    exact ⟨a, y ++ rest, hp.ok.mpr ⟨x, hx, List.append_assoc x y rest⟩,
      (hf a).ok.mpr ⟨y, hy, rfl⟩⟩

/-! ### Local readers -/

/-- A run of `p` that succeeds depends on what it takes and on nothing behind it. -/
def Local (p : Reader τ ε α) : Prop :=
  ∀ bs a rest, p bs = .ok (a, rest) → ∃ front, bs = front ++ rest ∧ Reads p front a

theorem Local.pure (a : α) : Local (Pure.pure a : Reader τ ε α) := by
  intro bs b rest h
  obtain ⟨rfl, rfl⟩ := pure_ok.mp h
  exact ⟨[], rfl, Reads.pure a⟩

theorem Local.throw (e : ε) : Local (MonadExcept.throw e : Reader τ ε α) :=
  fun _ _ _ h => absurd h throw_ok

theorem Local.bind {p : Reader τ ε α} {f : α → Reader τ ε β} (hp : Local p)
    (hf : ∀ a, Local (f a)) : Local (p >>= f) := by
  intro bs b rest h
  obtain ⟨a, mid, ha, hb⟩ := bind_ok.mp h
  obtain ⟨x, rfl, hx⟩ := hp bs a mid ha
  obtain ⟨y, rfl, hy⟩ := hf a mid b rest hb
  exact ⟨x ++ y, (List.append_assoc x y rest).symm, hx.bind hy⟩

theorem Local.map {p : Reader τ ε α} (hp : Local p) (f : α → β) : Local (f <$> p) := by
  intro bs b rest h
  obtain ⟨a, ha, rfl⟩ := map_ok.mp h
  obtain ⟨x, rfl, hx⟩ := hp bs a rest ha
  exact ⟨x, rfl, hx.map f⟩

theorem Local.ite {c : Prop} [Decidable c] {p q : Reader τ ε α} (hp : Local p) (hq : Local q) :
    Local (if c then p else q) := by
  split
  · exact hp
  · exact hq

section

variable {p : Reader τ ε α} {s t rest : List τ} {a : α}

theorem Local.length_le (hp : Local p) (h : p s = .ok (a, rest)) : rest.length ≤ s.length := by
  obtain ⟨x, rfl, -⟩ := hp s a rest h
  rw [List.length_append]
  omega

/-- What is left is what is behind the tokens taken. -/
theorem Local.rest_eq (hp : Local p) (h : p s = .ok (a, rest)) :
    rest = s.drop (s.length - rest.length) := by
  obtain ⟨x, rfl, -⟩ := hp s a rest h
  rw [List.length_append, Nat.add_sub_cancel, List.drop_left]

/-- Inputs that agree in what the reader takes are read alike. -/
theorem Local.agree (hp : Local p) (h : p s = .ok (a, rest))
    (ht : t.take (s.length - rest.length) = s.take (s.length - rest.length)) :
    p t = .ok (a, t.drop (s.length - rest.length)) := by
  obtain ⟨x, rfl, hx⟩ := hp s a rest h
  rw [List.length_append, Nat.add_sub_cancel] at ht ⊢
  rw [List.take_left] at ht
  have hread := hx (t.drop x.length)
  rwa [← ht, List.length_take_of_le, List.take_append_drop] at hread
  rw [← ht, List.length_take]
  exact Nat.min_le_right _ _

/-- An input that is cut off within what the reader takes is not read at all. -/
theorem Local.truncated (hp : Local p) (h : p s = .ok (a, rest)) {m : ℕ}
    (hm : m < s.length - rest.length) : ∃ e, p (s.take m) = .error e := by
  cases hcut : p (s.take m) with
  | error e => exact ⟨e, rfl⟩
  | ok r =>
    obtain ⟨b, left⟩ := r
    obtain ⟨x, hx, hread⟩ := hp _ b left hcut
    -- the cut input would be read as it is with its tail back in place
    have hwhole := hread (left ++ s.drop m)
    rw [← List.append_assoc, ← hx, List.take_append_drop, h] at hwhole
    obtain ⟨-, rfl⟩ := Prod.ext_iff.mp (Except.ok.inj hwhole)
    change m < s.length - (left ++ s.drop m).length at hm
    rw [List.length_append, List.length_drop] at hm
    omega

end

/-- `p` takes the front of the input, whatever it makes of it. -/
def Takes (p : Reader τ ε α) (bs rest : List τ) : Prop := ∃ a, p bs = .ok (a, rest)

theorem takes_return {p : Reader τ ε α} {f : α → β} {bs rest : List τ} :
    Takes (p >>= fun a => Pure.pure (f a)) bs rest ↔ Takes p bs rest := by
  constructor
  · rintro ⟨b, h⟩
    obtain ⟨a, mid, ha, hb⟩ := bind_ok.mp h
    obtain ⟨-, rfl⟩ := pure_ok.mp hb
    exact ⟨a, ha⟩
  · rintro ⟨a, ha⟩
    exact ⟨f a, bind_ok.mpr ⟨a, rest, ha, pure_ok.mpr ⟨rfl, rfl⟩⟩⟩

/-- One block from each language, in order. -/
def Concat : List (List τ → Prop) → List τ → Prop
  | [], bs => bs = []
  | L :: Ls, bs => ∃ x y, L x ∧ Concat Ls y ∧ bs = x ++ y

theorem Concat.nil : Concat ([] : List (List τ → Prop)) [] := rfl

theorem Concat.cons {L : List τ → Prop} {Ls : List (List τ → Prop)} {x y : List τ} (hx : L x)
    (hy : Concat Ls y) : Concat (L :: Ls) (x ++ y) :=
  ⟨x, y, hx, hy, rfl⟩

/-! ### Counted loops -/

/-- Run `p` exactly `n` times and collect the values. -/
def times (p : Reader τ ε α) : ℕ → Reader τ ε (List α)
  | 0 => Pure.pure []
  | n + 1 => do
    let a ← p
    let as ← times p n
    return a :: as

/-- A counted loop reads the concatenation of what its iterations read. -/
theorem Reads.times {p : Reader τ ε α} {enc : β → List τ} {val : β → α} :
    ∀ {xs : List β}, (∀ x ∈ xs, Reads p (enc x) (val x)) →
      Reads (Reader.times p xs.length) (xs.flatMap enc) (xs.map val)
  | [], _ => Reads.pure []
  | x :: xs, h => by
    have hx : Reads p (enc x) (val x) := h x List.mem_cons_self
    have hxs : Reads (Reader.times p xs.length) (xs.flatMap enc) (xs.map val) :=
      Reads.times fun y hy => h y (List.mem_cons_of_mem x hy)
    rw [List.flatMap_cons]
    exact hx.bind (hxs.bind_nil (Reads.pure _))

theorem Local.times {p : Reader τ ε α} (hp : Local p) : ∀ n, Local (Reader.times p n)
  | 0 => .pure []
  | n + 1 => hp.bind fun _ => (Local.times hp n).bind fun _ => .pure _

theorem Accepts.times {p : Reader τ ε α} {enc : α → List τ} (hp : Accepts p fun a b => b = enc a) :
    ∀ n, Accepts (Reader.times p n) fun as b => as.length = n ∧ b = as.flatMap enc
  | 0, bs, rest, as => by
    rw [Reader.times, pure_ok]
    constructor
    · rintro ⟨rfl, rfl⟩
      exact ⟨[], ⟨rfl, rfl⟩, rfl⟩
    · rintro ⟨b, ⟨hlen, rfl⟩, rfl⟩
      obtain rfl := List.length_eq_zero_iff.mp hlen
      exact ⟨rfl, rfl⟩
  | n + 1, bs, rest, as => by
    rw [Reader.times, bind_ok]
    constructor
    · rintro ⟨a, mid, ha, h⟩
      obtain ⟨as', mid', has, h'⟩ := bind_ok.mp h
      obtain ⟨rfl, rfl⟩ := pure_ok.mp h'
      -- one element, and then `n` of them
      obtain ⟨b, rfl, rfl⟩ := hp.ok.mp ha
      obtain ⟨b', ⟨rfl, rfl⟩, rfl⟩ := (hp.times n).ok.mp has
      refine ⟨_, ⟨rfl, rfl⟩, ?_⟩
      rw [List.flatMap_cons, List.append_assoc]
    · rintro ⟨b, ⟨hlen, rfl⟩, rfl⟩
      match as, hlen with
      | a :: as, hlen =>
        refine ⟨a, as.flatMap enc ++ rest, hp.ok.mpr ⟨_, rfl, ?_⟩, bind_ok.mpr ⟨as, rest, ?_, ?_⟩⟩
        · rw [List.flatMap_cons, List.append_assoc]
        · exact (hp.times n).ok.mpr ⟨_, ⟨Nat.succ.inj hlen, rfl⟩, rfl⟩
        · exact pure_ok.mpr ⟨rfl, rfl⟩

/-- Each iteration of a counted loop that succeeds consumed a block the body accepts. -/
theorem times_ok {p : Reader τ ε α} {P : List τ → Prop}
    (hp : ∀ bs a rest, p bs = .ok (a, rest) → ∃ b, bs = b ++ rest ∧ P b) :
    ∀ {n : ℕ} {bs : List τ} {as : List α} {rest : List τ},
      times p n bs = .ok (as, rest) →
        ∃ blocks : List (List τ), blocks.length = n ∧ (∀ b ∈ blocks, P b) ∧
          bs = blocks.flatten ++ rest
  | 0, bs, as, rest, h => by
    obtain ⟨-, rfl⟩ := pure_ok.mp h
    exact ⟨[], rfl, by simp, rfl⟩
  | n + 1, bs, as, rest, h => by
    obtain ⟨a, mid, h₁, h₂⟩ := bind_ok.mp h
    obtain ⟨as', mid', h₃, h₄⟩ := bind_ok.mp h₂
    obtain ⟨-, rfl⟩ := pure_ok.mp h₄
    -- the block of the first round goes in front of those of the rest
    obtain ⟨b, rfl, hb⟩ := hp _ _ _ h₁
    obtain ⟨blocks, hlen, hall, rfl⟩ := times_ok hp h₃
    refine ⟨b :: blocks, by simp [hlen], ?_, by simp⟩
    intro c hc
    rcases List.mem_cons.mp hc with rfl | hc
    · exact hb
    · exact hall c hc

end Reader
