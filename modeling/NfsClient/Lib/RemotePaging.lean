import NfsClient.Lib.Objects
import NfsClient.Lib.Paging

/-!
# Page loops over remote objects

`Pager.loop` asks a server for page after page. With the object at hand the same listing is
`pagesAtHand`, which takes the pages from the object and changes its state with each. Where every page
is transparent, so is the loop (`Pager.loop_ends`), provided that it comes to a last page within its
fuel.
-/

namespace Paging

open Interaction

variable {Q R S K C κ ν ε ω σ : Type}

/-- The first `n` pages behind a cookie, and whether the last of them ends the listing. -/
def pagesAtHand (page : κ → ν → σ → Except ω (Page ν ε) × σ) (cookie : ε → κ) :
    ℕ → κ → ν → σ → Except ω (List ε × Bool) × σ
  | 0, _, _, s => (.ok ([], false), s)
  | n + 1, k, v, s =>
    match page k v s with
    | (.error e, s) => (.error e, s)
    | (.ok p, s) =>
      if p.eof then (.ok (p.entries, true), s)
      else
        let r := pagesAtHand page cookie n (lastCookie cookie k p.entries) p.verf s
        (r.1.map fun x => (p.entries ++ x.1, x.2), r.2)

variable {P : Pager Q R C κ ν ε ω} {page : κ → ν → σ → Except ω (Page ν ε) × σ}
  {serve : S → Q → Option R × S} {at_ : K → S → Prop} {budget : S → ℕ} {rel : C → K → σ → Prop}

/-- Every page that the client asks for is the one at hand, in states that are related again. -/
def Pager.Reads (P : Pager Q R C κ ν ε ω) (serve : S → Q → Option R × S) (at_ : K → S → Prop)
    (budget : S → ℕ) (page : κ → ν → σ → Except ω (Page ν ε) × σ) (rel : C → K → σ → Prop) : Prop :=
  ∀ c t s k v, rel c t s → ∃ n r t',
    (Prog.call (P.request c k v) .done).Ends serve at_ budget n t r t' ∧
      P.page r = (page k v s).1 ∧ rel (P.sent c) t' (page k v s).2

/-- **The page loop** ends as the pages at hand do, if one of them is the last. -/
theorem Pager.loop_ends (hpage : P.Reads serve at_ budget page rel) :
    ∀ (fuel : ℕ) (all : List ε) {k : κ} {v : ν} {c : C} {t : K} {s : σ}, rel c t s →
      (∀ x, (pagesAtHand page P.cookie fuel k v s).1 = .ok x → x.2 = true) →
      ∃ n c' t', (P.loop fuel k v all c).Ends serve at_ budget n t
          ((pagesAtHand page P.cookie fuel k v s).1.map (all ++ ·.1), c') t' ∧
        rel c' t' (pagesAtHand page P.cookie fuel k v s).2
  | 0, _, _, _, _, _, _, _, hlast => nomatch hlast _ rfl
  | fuel + 1, all, k, v, c, t, s, hrel, hlast => by
    obtain ⟨n, r, t', hends, hloop, hrel'⟩ := hpage c t s k v hrel
    unfold pagesAtHand at hlast ⊢
    rcases hone : page k v s with ⟨e | p, s'⟩
    · rw [hone] at hloop hrel'
      refine ⟨n + 0, P.sent c, t', hends.call ?_, hrel'⟩
      simp only [hloop]
      exact .done _ _
    · rw [hone] at hloop hrel' hlast
      by_cases heof : p.eof = true
      · simp only [if_pos heof]
        refine ⟨n + 0, P.sent c, t', hends.call ?_, hrel'⟩
        simp only [hloop, if_pos heof]
        exact .done _ _
      · simp only [if_neg heof] at hlast ⊢
        -- the pages behind this one are those of a loop that begins with what there is already
        obtain ⟨m, c', t'', hends', hrel''⟩ := Pager.loop_ends hpage fuel (all ++ p.entries) hrel'
          fun x hx => hlast (p.entries ++ x.1, x.2) (congrArg (Except.map _) hx)
        refine ⟨n + m, c', t'', hends.call ?_, hrel''⟩
        simp only [hloop, if_neg heof]
        have hall : ∀ x : Except ω (List ε × Bool), (x.map fun x => (p.entries ++ x.1, x.2)).map (all ++ ·.1)
            = x.map (all ++ p.entries ++ ·.1) := by
          rintro (e | x)
          · rfl
          · exact congrArg Except.ok (List.append_assoc all p.entries x.1).symm
        rw [hall]
        exact hends'

end Paging
