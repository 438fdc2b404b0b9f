import NfsClient.Lib.XdrGrammar
import NfsClient.Xdr.Codec

/-!
# Linked lists

An XDR linked list is read by a loop on its `value_follows` words. The directory listings and the
export list have this loop each with its own item; the loop over groups is inside the loop over
exports. `decodeList_reads` says of all of them at once that they take exactly the list: the
induction is on the list, and what carries it is that the item decoder takes exactly one item.
-/

namespace NfsClient

open Xdr Reader

variable {α β : Type}

/-- `while (dec.get_uint32() != 0)` around the item `item`. An iteration takes at least four bytes,
so the number of bytes left bounds the iterations, and with none left `get_uint32` underflows. -/
def decodeChain (item : XdrDecoder β) : ℕ → XdrDecoder (List β)
  | 0 => throw underflow
  | fuel + 1 => do
    let value_follows ← getUint32
    if value_follows ≠ 0 then do
      let x ← item
      let xs ← decodeChain item fuel
      return x :: xs
    else return []

def decodeList (item : XdrDecoder β) : XdrDecoder (List β) := do
  let left ← remaining
  decodeChain item left

theorem decodeChain_reads {item : XdrDecoder β} {f : Format α} {xs : List α} {ys : List β}
    (h : List.Forall₂ (fun x y => Reads item (f.write x) y) xs ys) :
    ∀ {fuel : ℕ}, xs.length < fuel →
      Reads (decodeChain item fuel) (Format.writeChain f xs) ys := by
  induction h with
  | nil =>
    intro fuel hfuel
    obtain ⟨fuel, rfl⟩ := Nat.exists_eq_add_of_lt hfuel
    -- the flag is zero, and the chain ends
    refine (getUint32_reads 0).bind_nil ?_
    rw [if_neg (not_not.mpr rfl)]
    exact Reads.pure []
  | @cons x y xs ys hx _ ih =>
    intro fuel hfuel
    cases fuel with
    | zero => exact absurd hfuel (Nat.not_lt_zero _)
    | succ fuel =>
      have hxs := ih (Nat.lt_of_succ_lt_succ hfuel)
      have hcons : Format.writeChain f (x :: xs) =
          word 1 ++ (f.write x ++ Format.writeChain f xs) := by
        simp only [Format.writeChain, List.flatMap_cons, List.append_assoc]
        rfl
      rw [hcons]
      -- a flag, the element, and the chain of the rest
      refine (getUint32_reads 1).bind ?_
      rw [if_pos (by decide)]
      exact hx.bind (hxs.bind_nil (Reads.pure _))

/-- **A linked list is read to its end**, whatever the items are, and no further. -/
theorem decodeList_reads {item : XdrDecoder β} {f : Format α} {xs : List α} {ys : List β}
    (h : List.Forall₂ (fun x y => Reads item (f.write x) y) xs ys) :
    Reads (decodeList item) ((Format.chain f).write xs) ys := by
  intro rest
  -- every link has a word of its own, so the bytes outnumber the links
  have hlen : xs.length < (Format.writeChain f xs ++ rest).length := by
    have h := Format.length_lt_writeChain f xs
    rw [List.length_append]
    omega
  exact decodeChain_reads h hlen rest

/-- `decodeList_reads` where the items come back as they are. -/
theorem decodeList_reads_same {item : XdrDecoder α} {f : Format α} {xs : List α}
    (h : ∀ x ∈ xs, Reads item (f.write x) x) :
    Reads (decodeList item) ((Format.chain f).write xs) xs :=
  decodeList_reads (List.forall₂_same.mpr h)

/-- A list that is read to its end is read alike with any fuel that covers it, whatever is behind
it. -/
theorem decodeChain_local {item : XdrDecoder β} (hitem : Local item) :
    ∀ {fuel : ℕ} {bs : Bytes} {xs : List β} {rest : Bytes},
      decodeChain item fuel bs = .ok (xs, rest) →
        ∃ front : Bytes, bs = front ++ rest ∧ xs.length < front.length ∧
          ∀ fuel', xs.length < fuel' → Reads (decodeChain item fuel') front xs := by
  intro fuel
  induction fuel with
  | zero => exact fun h => absurd h throw_ok
  | succ fuel ih =>
    intro bs xs rest h
    obtain ⟨value_follows, mid, hflag, hbody⟩ := bind_ok.mp h
    rw [getUint32_ok.mp hflag]
    -- any flag but zero says that another element follows
    by_cases hzero : value_follows = 0
    · rw [if_neg (not_not.mpr hzero)] at hbody
      obtain ⟨rfl, rfl⟩ := pure_ok.mp hbody
      refine ⟨word value_follows, rfl, by rw [length_word]; exact Nat.succ_pos 3, fun fuel' hfuel' => ?_⟩
      obtain ⟨fuel', rfl⟩ := Nat.exists_eq_add_of_lt hfuel'
      refine (getUint32_reads value_follows).bind_nil ?_
      rw [if_neg (not_not.mpr hzero)]
      exact Reads.pure []
    · rw [if_pos hzero] at hbody
      obtain ⟨x, mid₁, hx, hloop⟩ := bind_ok.mp hbody
      obtain ⟨xs', mid₂, hxs, hlast⟩ := bind_ok.mp hloop
      obtain ⟨rfl, rfl⟩ := pure_ok.mp hlast
      -- the front: the flag, what `item` takes, and the front of the rest
      obtain ⟨a, rfl, ha⟩ := hitem _ _ _ hx
      obtain ⟨b, rfl, hlen, hb⟩ := ih hxs
      refine ⟨word value_follows ++ (a ++ b), by simp only [List.append_assoc], ?_, ?_⟩
      · simp only [List.length_append, List.length_cons, length_word]
        omega
      · intro fuel' hfuel'
        obtain ⟨fuel', rfl⟩ := Nat.exists_eq_add_of_lt (Nat.zero_lt_of_lt hfuel')
        rw [Nat.zero_add] at hfuel' ⊢
        refine (getUint32_reads value_follows).bind ?_
        rw [if_pos hzero]
        exact ha.bind ((hb fuel' (Nat.lt_of_succ_lt_succ hfuel')).bind_nil (Reads.pure _))

/-- The loop over a list is local, although its fuel is the number of all the bytes that are left. -/
theorem decodeList_local {item : XdrDecoder β} (hitem : Local item) : Local (decodeList item) := by
  intro bs xs rest h
  obtain ⟨front, rfl, hlen, hread⟩ := decodeChain_local hitem h
  refine ⟨front, rfl, fun rest' => hread _ ?_ rest'⟩
  rw [List.length_append]
  omega

/-- The `eof` word behind a list. -/
theorem eof_reads {f : Bool → α} (eof : Bool) :
    Reads (do let w ← getUint32; return f (w ≠ 0)) (Xdr.bool eof) (f eof) := by
  cases eof with
  | false => exact (getUint32_reads 0).bind_nil (Reads.pure _)
  | true => exact (getUint32_reads 1).bind_nil (Reads.pure _)

end NfsClient
