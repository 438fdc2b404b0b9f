import NfsClient.Lib.Interaction

/-!
# Reading a listing page by page

A client that reads a listing asks for the entries behind a cookie, gets a page of them and asks
again behind the last one, until a page says that it is the last. With each request it hands back the
verifier of the page before. `Pager` is such a client and `Pager.loop` its loop, which takes every
page as it comes: it does not look whether a page has any entries, or where they lead.

* `Pager.Speaks.loop_lists`: a server with a finite listing may cut it into pages as it likes
  (`Listing.serve`). The loop makes only requests that the server expects, and ends with the entries
  of the listing, in order; all of them have been sent (`Pager.Speaks.loop_logs`). What carries the
  induction is that cookies name places in the listing (`Listing.eq_of_lastCookie`).
* `Pager.loop_run`: against an arbitrary server, the requests of a run are determined by the pages
  received, and nothing but a last page ends the loop.
* `Pager.cookies_nodup`: as long as every page ends in a cookie of its own (`Pager.Moves`), no
  request repeats an earlier one, so that the number of cookies bounds the number of requests.
-/

namespace Paging

open Interaction

variable {Q R C κ ν δ ε ω S : Type}

/-! ### Pages and pagers -/

structure Page (ν ε : Type) where
  entries : List ε
  /-- To be handed back with the next request. -/
  verf : ν
  eof : Bool

/-- The cookie behind a list of entries that begins behind `k`. -/
def lastCookie (cookie : ε → κ) (k : κ) (entries : List ε) : κ :=
  entries.foldl (fun _ e => cookie e) k

@[simp] theorem lastCookie_nil (cookie : ε → κ) (k : κ) : lastCookie cookie k [] = k := rfl

@[simp] theorem lastCookie_cons (cookie : ε → κ) (k : κ) (e : ε) (entries : List ε) :
    lastCookie cookie k (e :: entries) = lastCookie cookie (cookie e) entries := rfl

theorem lastCookie_append (cookie : ε → κ) (k : κ) (xs ys : List ε) :
    lastCookie cookie k (xs ++ ys) = lastCookie cookie (lastCookie cookie k xs) ys :=
  List.foldl_append

/-- The cookie behind a list is where the list begins or the cookie of one of its entries. -/
theorem lastCookie_eq_or (cookie : ε → κ) (k : κ) (entries : List ε) :
    lastCookie cookie k entries = k ∨ ∃ e ∈ entries, lastCookie cookie k entries = cookie e := by
  induction entries generalizing k with
  | nil => exact Or.inl rfl
  | cons e entries ih =>
    rw [lastCookie_cons]
    rcases ih (cookie e) with h | ⟨e', he', h⟩
    · exact Or.inr ⟨e, List.mem_cons_self, h⟩
    · exact Or.inr ⟨e', List.mem_cons_of_mem e he', h⟩

/-- Cookies survive a translation of the entries that keeps them. -/
theorem lastCookie_map {cookie : ε → κ} {cookie' : δ → κ} {view : δ → ε}
    (h : ∀ e, cookie (view e) = cookie' e) (k : κ) (entries : List δ) :
    lastCookie cookie k (entries.map view) = lastCookie cookie' k entries := by
  induction entries generalizing k with
  | nil => rfl
  | cons e entries ih => rw [List.map_cons, lastCookie_cons, lastCookie_cons, h, ih]

/-- A client with state `C`: the request for the entries behind a cookie, what it makes of a
response, and its state after a request. -/
structure Pager (Q R C κ ν ε ω : Type) where
  request : C → κ → ν → Q
  page : R → Except ω (Page ν ε)
  sent : C → C
  cookie : ε → κ

namespace Pager

variable (P : Pager Q R C κ ν ε ω)

/-- The loop; `all` is what the earlier pages held. -/
def loop : ℕ → κ → ν → List ε → C → Prog Q R (Except ω (List ε) × C)
  | 0, _, _, _, _ => .cut
  | fuel + 1, k, v, all, c =>
    .call (P.request c k v) fun r =>
      match P.page r with
      | .error e => .done (.error e, P.sent c)
      | .ok page =>
        if page.eof then .done (.ok (all ++ page.entries), P.sent c)
        else loop fuel (lastCookie P.cookie k page.entries) page.verf (all ++ page.entries)
          (P.sent c)

/-- **The rule of the loop**: what every page keeps holds when the loop ends. -/
theorem wp_loop {step : Step Q R S} {ok : S → Q → Prop}
    {post : Except ω (List ε) × C → S → Prop} {I : C → S → Prop}
    (hpage : ∀ c s k v, I c s → ok s (P.request c k v) ∧
      ∀ r s', step s (P.request c k v) r s' →
        match P.page r with
        | .error e => post (.error e, P.sent c) s'
        | .ok _ => I (P.sent c) s')
    (hpost : ∀ all c s, I c s → post (.ok all, c) s) :
    ∀ {fuel : ℕ} {k : κ} {v : ν} {all : List ε} {c : C} {s : S}, I c s →
      wp step ok post (P.loop fuel k v all c) s
  | 0, _, _, _, _, _, _ => trivial
  | fuel + 1, k, v, all, c, s, hI => by
    -- induction on the fuel; the invariant carries what the client and the server are after a page
    obtain ⟨hok, hstep⟩ := hpage c s k v hI
    refine ⟨hok, fun r s' hr => ?_⟩
    have h := hstep r s' hr
    cases hp : P.page r with
    | error e =>
      simp only [hp] at h ⊢
      exact h
    | ok page =>
      simp only [hp] at h ⊢
      split
      · exact hpost _ _ _ h
      · exact wp_loop hpage hpost h

/-- The loop sends requests for places and no others. -/
theorem loop_sends {Φ : List R → Q → Prop} (hrequest : ∀ h c k v, Φ h (P.request c k v))
    (fuel : ℕ) (k : κ) (v : ν) (all : List ε) (c : C) (h : List R) :
    (P.loop fuel k v all c).Sends Φ h := by
  refine Prog.sends_iff.mpr (P.wp_loop (I := fun _ _ => True) (fun c h k v _ => ?_)
    (fun _ _ _ _ => trivial) trivial)
  refine ⟨hrequest h c k v, fun r h' _ => ?_⟩
  cases P.page r <;> exact trivial

end Pager

/-! ### Finite listings -/

/-- A finite listing whose entries have distinct cookies. `start` is the place before the first
entry, and no entry has it. -/
structure Listing (cookie : δ → κ) (start : κ) where
  entries : List δ
  nodup : (start :: entries.map cookie).Nodup

namespace Listing

variable {cookie : δ → κ} {start : κ} (L : Listing cookie start)

/-- `rest` is what follows the place `k`. -/
def Behind (k : κ) (rest : List δ) : Prop :=
  ∃ pre, L.entries = pre ++ rest ∧ lastCookie cookie start pre = k

/-- A page answers a request for what follows `k`: it has a run of the entries there, an empty one
only if there are none, and it is the last page if the run reaches the end. -/
def Answers (k : κ) (page : Page ν δ) : Prop :=
  ∃ rest, L.Behind k (page.entries ++ rest) ∧ (page.entries = [] → rest = []) ∧
    (page.eof = true ↔ rest = [])

/-- A server with the listing: any page that answers, with any verifier. `asks q k v` means that `q`
asks for what follows `k` and hands back `v`, `carries r page` that `r` has the page in it; the
state of the server is the place that it has listed up to and the verifier that it wants back. -/
def serve (asks : Q → κ → ν → Prop) (carries : R → Page ν δ → Prop) : Step Q R (κ × ν) :=
  fun _ q r s' => ∃ k v page, asks q k v ∧ L.Answers k page ∧ carries r page ∧
    s' = (lastCookie cookie k page.entries, page.verf)

/-- The requests that the server expects. -/
def Expects (asks : Q → κ → ν → Prop) (s : κ × ν) (q : Q) : Prop := asks q s.1 s.2

/-- The same server, with the entries that it has sent. -/
def serveLog (asks : Q → κ → ν → Prop) (carries : R → Page ν δ → Prop) :
    Step Q R ((κ × ν) × List δ) :=
  fun s q r s' => ∃ k v page, asks q k v ∧ L.Answers k page ∧ carries r page ∧
    s' = ((lastCookie cookie k page.entries, page.verf), s.2 ++ page.entries)

/-- The server expects the request, and has a page for it. -/
def ExpectsAt (asks : Q → κ → ν → Prop) (s : (κ × ν) × List δ) (q : Q) : Prop :=
  Expects asks s.1 q ∧ ∃ rest, L.Behind s.1.1 rest

/-- All that follows a place can be one page. -/
theorem Behind.answers {k : κ} {rest : List δ} (h : L.Behind k rest) (v : ν) :
    L.Answers k ⟨rest, v, true⟩ :=
  ⟨[], (List.append_nil rest).symm ▸ h, fun _ => rfl, fun _ => rfl, fun _ => rfl⟩

/-- The entries that are still there. -/
def filter (keep : δ → Bool) : Listing cookie start where
  entries := L.entries.filter keep
  nodup := L.nodup.sublist ((L.entries.filter_sublist.map cookie).cons_cons start)

theorem getElem?_lastCookie (cookie : δ → κ) (k : κ) (pre rest : List δ) :
    (k :: (pre ++ rest).map cookie)[pre.length]? = some (lastCookie cookie k pre) := by
  induction pre generalizing k with
  | nil => rfl
  | cons e pre ih =>
    rw [lastCookie_cons, ← ih (cookie e)]
    rfl

/-- A cookie names one place. -/
theorem eq_of_lastCookie {pre pre' rest rest' : List δ} (h : L.entries = pre ++ rest)
    (h' : L.entries = pre' ++ rest')
    (hk : lastCookie cookie start pre = lastCookie cookie start pre') :
    pre = pre' ∧ rest = rest' := by
  have hat := getElem?_lastCookie cookie start pre rest
  have hat' := getElem?_lastCookie cookie start pre' rest'
  rw [← h] at hat
  rw [← h', ← hk, ← hat] at hat'
  have hlen : pre.length < (start :: L.entries.map cookie).length := by
    rw [h, List.length_cons, List.length_map, List.length_append]
    omega
  have heq : pre.length = pre'.length := (List.getElem?_inj hlen L.nodup).mp hat'.symm
  exact List.append_inj (h.symm.trans h') heq

end Listing

/-! ### Reading a listing -/

/-- Client and server understand each other: a request of the client asks for what it is made for
and for nothing else, and the client makes of a response the page that is in it. -/
structure Pager.Speaks (P : Pager Q R C κ ν ε ω) (asks : Q → κ → ν → Prop)
    (carries : R → Page ν δ → Prop) (cookie : δ → κ) (view : δ → ε) : Prop where
  asks_iff : ∀ c k v k' v', asks (P.request c k v) k' v' ↔ k' = k ∧ v' = v
  page_ok : ∀ r page, carries r page → P.page r = .ok ⟨page.entries.map view, page.verf, page.eof⟩
  cookie_view : ∀ e, P.cookie (view e) = cookie e

section Speaks

variable {P : Pager Q R C κ ν ε ω} {asks : Q → κ → ν → Prop} {carries : R → Page ν δ → Prop}
  {cookie : δ → κ} {view : δ → ε} {start : κ}

/-- The loop behind the entries `pre`. -/
theorem Pager.Speaks.loop_lists_from (h : P.Speaks asks carries cookie view)
    (L : Listing cookie start) :
    ∀ {fuel : ℕ} (pre : List δ) {rest : List δ} {v : ν} {c : C}, L.entries = pre ++ rest →
      rest.length < fuel →
      twp (L.serveLog asks carries) (L.ExpectsAt asks)
        (fun rc s => rc.1 = .ok (L.entries.map view) ∧ s.2 = L.entries)
        (P.loop fuel (lastCookie cookie start pre) v (pre.map view) c)
        ((lastCookie cookie start pre, v), pre)
  | 0, _, _, _, _, _, hfuel => absurd hfuel (Nat.not_lt_zero _)
  | fuel + 1, pre, rest, v, c, hpre, hfuel => by
    refine ⟨⟨(h.asks_iff c _ v _ v).mpr ⟨rfl, rfl⟩, rest, pre, hpre, rfl⟩, ?_⟩
    rintro r s' ⟨k', v', page, hasks, ⟨rest', ⟨pre', hpre', hk'⟩, hempty, heof⟩, hcarries, rfl⟩
    obtain ⟨rfl, rfl⟩ := (h.asks_iff _ _ _ _ _).mp hasks
    -- the server begins where the client stands
    obtain ⟨rfl, rfl⟩ := L.eq_of_lastCookie hpre' hpre hk'
    have hentries : L.entries = (pre' ++ page.entries) ++ rest' := by
      rw [hpre', List.append_assoc]
    have hcookie : lastCookie P.cookie (lastCookie cookie start pre') (page.entries.map view) =
        lastCookie cookie start (pre' ++ page.entries) := by
      rw [lastCookie_map h.cookie_view, lastCookie_append]
    have hall : pre'.map view ++ page.entries.map view = (pre' ++ page.entries).map view :=
      List.map_append.symm
    simp only [h.page_ok r page hcarries, hcookie, hall]
    by_cases hlast : rest' = []
    · rw [if_pos (heof.mpr hlast), hentries, hlast, List.append_nil]
      exact ⟨rfl, rfl⟩
    · -- a page that is not the last has an entry, so less is left
      have hne : page.entries ≠ [] := fun hnil => hlast (hempty hnil)
      have hpos := List.length_pos_iff.mpr hne
      rw [List.length_append] at hfuel
      rw [if_neg (fun he => hlast (heof.mp he)), ← lastCookie_append]
      exact h.loop_lists_from L (pre' ++ page.entries) hentries (by omega)

/-- **A finite listing is read completely**, whatever the pages: every request is the one that the
server expects, and the loop ends with the entries in order, all of which have been sent. -/
theorem Pager.Speaks.loop_logs (h : P.Speaks asks carries cookie view) (L : Listing cookie start)
    {fuel : ℕ} (hfuel : L.entries.length < fuel) (v : ν) (c : C) :
    twp (L.serveLog asks carries) (L.ExpectsAt asks)
      (fun rc s => rc.1 = .ok (L.entries.map view) ∧ s.2 = L.entries) (P.loop fuel start v [] c)
      ((start, v), []) :=
  h.loop_lists_from L [] rfl hfuel

/-- The same, of a server that does not remember what it has sent. -/
theorem Pager.Speaks.loop_lists (h : P.Speaks asks carries cookie view) (L : Listing cookie start)
    {fuel : ℕ} (hfuel : L.entries.length < fuel) (v : ν) (c : C) :
    twp (L.serve asks carries) (Listing.Expects asks)
      (fun rc _ => rc.1 = .ok (L.entries.map view)) (P.loop fuel start v [] c) (start, v) := by
  refine twp_sim (fun s t => s = t.1) ?_ ?_ ?_ rfl (h.loop_logs L hfuel v c)
  · rintro s t q rfl ⟨hexpects, -⟩
    exact hexpects
  · rintro s t q r s' rfl - ⟨k, v', page, hasks, hanswers, hcarries, rfl⟩
    exact ⟨_, ⟨k, v', page, hasks, hanswers, hcarries, rfl⟩, rfl⟩
  · exact fun _ _ _ _ hpost => hpost.1

end Speaks

/-! ### Runs against any server -/

namespace Pager

variable (P : Pager Q R C κ ν ε ω)

/-- The place and the verifier of the request after a page. -/
def next (x : κ × ν) (page : Page ν ε) : κ × ν :=
  (lastCookie P.cookie x.1 page.entries, page.verf)

/-- The places and verifiers of the requests in a run in which `pages` are received, the one that
waits for its answer included. -/
def asked : κ × ν → List (Page ν ε) → List (κ × ν)
  | x, [] => [x]
  | x, page :: pages => x :: if page.eof then [] else asked (P.next x page) pages

/-- The requests for places, one after the other. -/
def requests : C → List (κ × ν) → List Q
  | _, [] => []
  | c, x :: xs => P.request c x.1 x.2 :: requests (P.sent c) xs

/-- An exchange in which a page is received. -/
def Received (exchange : Q × R) (page : Page ν ε) : Prop := P.page exchange.2 = .ok page

/-- What a run of the loop comes to in which `pages` are received: its requests, and, after a last
page, its value. -/
structure Run (x : κ × ν) (all : List ε) (c : C) (pages : List (Page ν ε)) (tr : List (Q × R))
    (p : Prog Q R (Except ω (List ε) × C)) : Prop where
  sent : tr.map Prod.fst ++ p.pending = P.requests c (P.asked x pages)
  ended : (∃ page ∈ pages, page.eof = true) →
    ∃ c', p = .done (.ok (all ++ pages.flatMap Page.entries), c')
  goes_on : (∀ page ∈ pages, page.eof = false) → ∃ q k, p = .call q k

variable {P} {step : Step Q R S}

/-- **The pages alone determine a run**: the loop does nothing but to ask for what follows the page
just received, and ends only behind a last page. -/
theorem loop_run :
    ∀ {pages : List (Page ν ε)} {tr : List (Q × R)} {fuel : ℕ} {x : κ × ν} {all : List ε} {c : C}
      {s s' : S} {p : Prog Q R (Except ω (List ε) × C)},
      Trace step (P.loop fuel x.1 x.2 all c) s tr p s' → List.Forall₂ P.Received tr pages →
      pages.length < fuel → P.Run x all c pages tr p
  | pages, _, 0, _, _, _, _, _, _, _, _, hfuel => absurd hfuel (Nat.not_lt_zero _)
  | [], _, fuel + 1, x, all, c, s, s', p, htr, hpages, _ => by
    cases hpages
    cases htr
    exact ⟨rfl, fun ⟨_, hmem, _⟩ => absurd hmem List.not_mem_nil, fun _ => ⟨_, _, rfl⟩⟩
  | page :: pages, _, fuel + 1, x, all, c, s, s', p, htr, hpages, hfuel => by
    obtain _ | ⟨hpage, hpages⟩ := hpages
    cases htr with
    | @call q k _ _ _ r tr _ hstep htr =>
      change P.page r = .ok page at hpage
      simp only [hpage] at htr
      -- the page decides: behind a last one the run has ended, behind any other it goes on
      cases heof : page.eof with
      | true =>
        rw [if_pos heof] at htr
        cases htr
        cases hpages
        refine ⟨?_, fun _ => ⟨P.sent c, by simp⟩, fun hall => ?_⟩
        · simp only [asked, heof]
          rfl
        · have hfalse := hall page List.mem_cons_self
          rw [heof] at hfalse
          cases hfalse
      | false =>
        rw [if_neg (by rw [heof]; exact Bool.false_ne_true)] at htr
        have hrun := loop_run (x := P.next x page) htr hpages (Nat.lt_of_succ_lt_succ hfuel)
        refine ⟨?_, fun hlast => ?_, fun hall => ?_⟩
        · simp only [asked, heof]
          exact congrArg (P.request c x.1 x.2 :: ·) hrun.sent
        -- the last page is not this one
        · obtain ⟨last, hmem, hlast⟩ := hlast
          rcases List.mem_cons.mp hmem with rfl | hmem
          · rw [heof] at hlast
            cases hlast
          · obtain ⟨c', hp⟩ := hrun.ended ⟨last, hmem, hlast⟩
            refine ⟨c', ?_⟩
            rw [hp, List.flatMap_cons, List.append_assoc]
        · exact hrun.goes_on fun page' hmem => hall page' (List.mem_cons_of_mem page hmem)

/-- An exchange in which a page is received that is not the last. -/
theorem trace_more {fuel : ℕ} {k : κ} {v : ν} {all : List ε} {c : C} {s s' s'' : S} {r : R}
    {page : Page ν ε} {tr : List (Q × R)} {p : Prog Q R (Except ω (List ε) × C)}
    (hpage : P.page r = .ok page) (heof : page.eof = false)
    (hstep : step s (P.request c k v) r s')
    (htr : Trace step (P.loop fuel (lastCookie P.cookie k page.entries) page.verf
      (all ++ page.entries) (P.sent c)) s' tr p s'') :
    Trace step (P.loop (fuel + 1) k v all c) s ((P.request c k v, r) :: tr) p s'' := by
  refine Trace.call hstep ?_
  simp only [hpage]
  rwa [if_neg (by rw [heof]; exact Bool.false_ne_true)]

/-- Every page that is not the last ends in a cookie that no request has carried yet; `used` are the
cookies of the earlier requests, `k` that of the last one. An empty page stays at `k`, and does not
move on. -/
def Moves (P : Pager Q R C κ ν ε ω) : List κ → κ → List (Page ν ε) → Prop
  | _, _, [] => True
  | used, k, page :: pages =>
    page.eof = true ∨
      lastCookie P.cookie k page.entries ∉ used ∧
        Moves P (lastCookie P.cookie k page.entries :: used) (lastCookie P.cookie k page.entries)
          pages

/-- The cookies of the requests are distinct, and all but the first are new. -/
theorem cookies_nodup_of_mem :
    ∀ {pages : List (Page ν ε)} {used : List κ} {x : κ × ν}, x.1 ∈ used →
      P.Moves used x.1 pages →
      ((P.asked x pages).map Prod.fst).Nodup ∧
        ∀ k ∈ (P.asked x pages).map Prod.fst, k = x.1 ∨ k ∉ used
  | [], used, x, _, _ => ⟨List.nodup_singleton _, fun k hk => Or.inl (List.mem_singleton.mp hk)⟩
  | page :: pages, used, x, hx, hmoves => by
    cases heof : page.eof with
    | true =>
      simp only [asked, heof]
      exact ⟨List.nodup_singleton _, fun k hk => Or.inl (List.mem_singleton.mp hk)⟩
    | false =>
      obtain hlast | ⟨hnew, hmoves⟩ := hmoves
      · rw [heof] at hlast
        cases hlast
      · obtain ⟨hnodup, hrest⟩ := cookies_nodup_of_mem (x := P.next x page) List.mem_cons_self hmoves
        -- what the rest asks with is new against all used cookies, of which `x.1` is one
        have hunused : ∀ k ∈ (P.asked (P.next x page) pages).map Prod.fst, k ∉ used := by
          intro k hk
          rcases hrest k hk with rfl | hk
          · exact hnew
          · exact fun hmem => hk (List.mem_cons_of_mem _ hmem)
        have hasked : P.asked x (page :: pages) = x :: P.asked (P.next x page) pages := by
          simp [asked, heof]
        rw [hasked, List.map_cons]
        refine ⟨List.nodup_cons.mpr ⟨fun hmem => hunused x.1 hmem hx, hnodup⟩, fun k hk => ?_⟩
        rcases List.mem_cons.mp hk with rfl | hk
        · exact Or.inl rfl
        · exact Or.inr (hunused k hk)

/-- **No request repeats** the cookie of an earlier one, if every page moves on. -/
theorem cookies_nodup {pages : List (Page ν ε)} {x : κ × ν} (h : P.Moves [x.1] x.1 pages) :
    ((P.asked x pages).map Prod.fst).Nodup :=
  (cookies_nodup_of_mem List.mem_cons_self h).1

/-- The requests carry the first cookie and cookies of entries received. -/
theorem cookie_mem :
    ∀ {pages : List (Page ν ε)} {x : κ × ν} {k : κ}, k ∈ (P.asked x pages).map Prod.fst →
      k = x.1 ∨ ∃ page ∈ pages, ∃ e ∈ page.entries, k = P.cookie e
  | [], x, k, hk => Or.inl (List.mem_singleton.mp hk)
  | page :: pages, x, k, hk => by
    rcases List.mem_cons.mp hk with rfl | hk
    · exact Or.inl rfl
    split at hk
    · exact absurd hk List.not_mem_nil
    -- the cookie of the next request is that of the page's last entry, or the old one if it has none
    rcases cookie_mem hk with rfl | ⟨page', hmem, he⟩
    · rcases lastCookie_eq_or P.cookie x.1 page.entries with h | ⟨e, he, h⟩
      · exact Or.inl h
      · exact Or.inr ⟨page, List.mem_cons_self, e, he, h⟩
    · exact Or.inr ⟨page', List.mem_cons_of_mem page hmem, he⟩

/-- Finitely many cookies bound the number of requests. -/
theorem length_asked_le {pages : List (Page ν ε)} {x : κ × ν} (h : P.Moves [x.1] x.1 pages)
    {K : List κ} (hx : x.1 ∈ K) (hK : ∀ page ∈ pages, ∀ e ∈ page.entries, P.cookie e ∈ K) :
    (P.asked x pages).length ≤ K.length := by
  have hsub : (P.asked x pages).map Prod.fst ⊆ K := by
    intro k hk
    rcases cookie_mem hk with rfl | ⟨page, hmem, e, he, rfl⟩
    · exact hx
    · exact hK page hmem e he
  rw [← List.length_map Prod.fst]
  exact ((cookies_nodup h).subperm hsub).length_le

/-- **Runs of a listing that looks at nothing but `eof`.** Whatever pages are received, its requests
are those that the pages lead to and it ends only behind a last page; if the pages move on, no request
repeats the cookie of an earlier one, and finitely many cookies bound the number of requests. -/
def RunsOn (P : Pager Q R C κ ν ε ω) (x : κ × ν) (c : C)
    (loop : ℕ → Prog Q R (Except ω (List ε) × C)) : Prop :=
  ∀ (S : Type) (step : Step Q R S) (fuel : ℕ) (s s' : S) (tr : List (Q × R))
    (pages : List (Page ν ε)) (p : Prog Q R (Except ω (List ε) × C)),
    Trace step (loop fuel) s tr p s' → List.Forall₂ P.Received tr pages → pages.length < fuel →
    P.Run x [] c pages tr p ∧
      (P.Moves [x.1] x.1 pages →
        ((P.asked x pages).map Prod.fst).Nodup ∧
          ∀ K : List κ, x.1 ∈ K → (∀ page ∈ pages, ∀ e ∈ page.entries, P.cookie e ∈ K) →
            (P.asked x pages).length ≤ K.length)

theorem loop_runsOn (x : κ × ν) (c : C) : P.RunsOn x c fun fuel => P.loop fuel x.1 x.2 [] c :=
  fun _ _ _ _ _ _ _ _ htr hpages hfuel =>
    ⟨loop_run htr hpages hfuel,
      fun hmoves => ⟨cookies_nodup hmoves, fun _ hx hK => length_asked_le hmoves hx hK⟩⟩

/-- A run that has received a last page has ended with what the pages hold. -/
theorem Speaks.run_ended {asks : Q → κ → ν → Prop} {carries : R → Page ν δ → Prop}
    {cookie : δ → κ} {view : δ → ε} (h : P.Speaks asks carries cookie view) {fuel : ℕ} {x : κ × ν}
    {c : C} {s s' : S} {tr : List (Q × R)} {p : Prog Q R (Except ω (List ε) × C)}
    {pages : List (Page ν δ)} (htr : Trace step (P.loop fuel x.1 x.2 [] c) s tr p s')
    (hpages : List.Forall₂ (fun exchange page => carries exchange.2 page) tr pages)
    (hfuel : pages.length < fuel) (hlast : ∃ page ∈ pages, page.eof = true) :
    ∃ c', p = .done (.ok (pages.flatMap fun page => page.entries.map view), c') := by
  -- the pages as the loop sees them
  let seen : Page ν δ → Page ν ε := fun page => ⟨page.entries.map view, page.verf, page.eof⟩
  have hseen : List.Forall₂ P.Received tr (pages.map seen) :=
    List.forall₂_map_right_iff.mpr (hpages.imp fun _ page hpage => h.page_ok _ page hpage)
  have hrun := loop_run htr hseen (by rwa [List.length_map])
  obtain ⟨page, hmem, heof⟩ := hlast
  obtain ⟨c', hp⟩ := hrun.ended ⟨seen page, List.mem_map_of_mem hmem, heof⟩
  refine ⟨c', ?_⟩
  rw [hp, List.nil_append, List.flatMap_map]

end Pager

end Paging
