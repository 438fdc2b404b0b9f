import NfsClient.Bench.Answers
import NfsClient.Lib.Removal

/-!
# Cleanup of the compliance tests

`clear_dir` and `rmdir_recursive` of the compliance tests (runner.cpp), which remove the scratch directory
of a run. The tests may leave anything in it, also what cannot be removed. Unlike the cleanup of the
benchmark, this one drops every exception (`swallow`), and goes on where it is refused something.

The server is the one of the other cleanup, but may refuse more (`Grants`): it keeps entries, does not list
directories, and withholds attributes. What is left of the tree can be said without the program, by what is
refused alone (`Refusals.Stays`). The induction is on the depth of the tree, and carries exactly what has
gone (`Cleared`): below a directory, or at those of its entries that the loop has passed.
-/

namespace NfsClient

open Xdr Interaction Nfs3 Paging FileTree Bench

def Nfs3.EntryPlus.fh (e : EntryPlus) : Option Bytes := e.2.2.2.2

namespace Compliance

/-! ### The cleanup -/

/-- `try { m } catch (...) {}` -/
def swallow {σ : Type} (m : ClientM σ Unit) : ClientM σ Unit := fun c =>
  (m c).bind fun rc => .done (.ok (), rc.2)

/-- The handle of an entry. -/
def childFh (dir_fh : Fh3) (e : DirEntryPlus3) : ClientM NFSClient Fh3 :=
  if e.has_fh then return e.fh else call (.lookup dir_fh e.name)

/-- One turn of the loop of `clear_dir`, which is called again as `clear`. -/
def clearEntry (clear : Fh3 → ClientM NFSClient Unit) (dir_fh : Fh3) (e : DirEntryPlus3) :
    ClientM NFSClient Unit :=
  if IsDot e.name then return ()
  else swallow <|
    if e.has_attrs ∧ e.attrs.type = .NF3DIR then do
      let child ← childFh dir_fh e
      clear child
      call (.rmdir dir_fh e.name)
    else call (.remove dir_fh e.name)

def clearEntries (clear : Fh3 → ClientM NFSClient Unit) (dir_fh : Fh3) :
    List DirEntryPlus3 → ClientM NFSClient Unit
  | [] => return ()
  | e :: entries => do
    clearEntry clear dir_fh e
    clearEntries clear dir_fh entries

/-- `fuel` is for the pages of a listing. The recursion is cut off at a depth. -/
def clearDir (fuel : ℕ) : ℕ → Fh3 → ClientM NFSClient Unit
  | 0, _ => ClientM.cut
  | depth + 1, dir_fh => swallow do
    let entries ← NFSClient.onConn (Nfs3.readdirplus fuel dir_fh 4096 32768)
    clearEntries (clearDir fuel depth) dir_fh entries

def rmdirRecursive (fuel depth : ℕ) (parent : Fh3) (name : Bytes) : ClientM NFSClient Unit :=
  swallow do
    let dir_fh ← call (.lookup parent name)
    clearDir fuel depth dir_fh
    call (.rmdir parent name)

theorem twpM_swallow {σ S : Type} {step : Step RpcRequest Received S} {ok : S → RpcRequest → Prop}
    {post : Except Exn Unit → σ → S → Prop} {m : ClientM σ Unit} {c : σ} {s : S} :
    twpM step ok post (swallow m) c s ↔ twpM step ok (fun _ c s => post (.ok ()) c s) m c s := twp_bind

/-! ### The server -/

/-- What comes with the entries of a listing: attributes, unless these are withheld, and the handle of the
entry, or none. -/
structure Obeys (R : Refusals Bytes) (s : Server) : Prop where
  untyped : ∀ p, s.fs.kind p = some .NF3DIR → ∀ e ∈ (s.listing p).entries, ¬ IsDot e.name →
    (e.attrs = none ↔ R.untyped (e.name :: p))
  handles : ∀ p, s.fs.kind p = some .NF3DIR → ∀ e ∈ (s.listing p).entries, ¬ IsDot e.name →
    ∀ fh ∈ e.fh, fh = s.handle (e.name :: p)

theorem Obeys.without {R : Refusals Bytes} {s : Server} (h : Obeys R s) (q : Path Bytes) :
    Obeys R (s.without q) where
  untyped p hp e he := by
    have hkind := (s.fs.kind_erase_ne_none (hp ▸ Option.some_ne_none _)).1
    exact h.untyped p (hkind ▸ hp) e (List.mem_filter.mp he).1
  handles p hp e he := by
    have hkind := (s.fs.kind_erase_ne_none (hp ▸ Option.some_ne_none _)).1
    exact h.handles p (hkind ▸ hp) e (List.mem_filter.mp he).1

/-- The answers of a server that refuses some things: beside what no server does, to REMOVE a directory and
to RMDIR one with entries, it does not give up what is `kept`, and does not list what is `unlisted`. -/
inductive Grants (R : Refusals Bytes) : Answers Server
  | lookup {s : Server} {p : Path Bytes} {n : Bytes} {obj_attributes dir_attributes : Option Fattr3}
      (hn : s.fs.kind (n :: p) ≠ none) : Grants R .LOOKUP (s.handle p, n)
        (some (s.handle (n :: p), obj_attributes, dir_attributes)) s s
  | list {s : Server} {p : Path Bytes} {cookie : UInt64} {cookieverf : Octets 8}
      {dircount maxcount : UInt32} {attrs : Option Fattr3} {page : Page (Octets 8) EntryPlus} (hp : s.fs.kind p = some .NF3DIR)
      (hlisted : ¬ R.unlisted p) (hpage : (s.listing p).Answers cookie page) :
      Grants R .READDIRPLUS (s.handle p, cookie, cookieverf, dircount, maxcount)
        (some (attrs, page.verf, page.entries, page.eof)) s s
  | unlisted {s : Server} {p : Path Bytes} {a : UInt64 × Octets 8 × UInt32 × UInt32}
      (hp : s.fs.kind p = some .NF3DIR) (h : R.unlisted p) : Grants R .READDIRPLUS (s.handle p, a) none s s
  | remove {s s' : Server} {p : Path Bytes} {n : Bytes} {wcc : WccData} (hn : s.fs.kind (n :: p) ≠ none)
      (hfile : s.fs.kind (n :: p) ≠ some .NF3DIR) (hgiven : ¬ R.kept (n :: p))
      (hs : s.Removed s' (n :: p)) (hobeys : Obeys R s') : Grants R .REMOVE (s.handle p, n) (some wcc) s s'
  | keep {s : Server} {p : Path Bytes} {n : Bytes} (hn : s.fs.kind (n :: p) ≠ none)
      (h : s.fs.kind (n :: p) = some .NF3DIR ∨ R.kept (n :: p)) : Grants R .REMOVE (s.handle p, n) none s s
  | rmdir {s s' : Server} {p : Path Bytes} {n : Bytes} {wcc : WccData}
      (hn : s.fs.kind (n :: p) = some .NF3DIR) (hempty : ∀ m, s.fs.kind (m :: n :: p) = none)
      (hgiven : ¬ R.kept (n :: p)) (hs : s.Removed s' (n :: p)) (hobeys : Obeys R s') :
      Grants R .RMDIR (s.handle p, n) (some wcc) s s'
  | keepDir {s : Server} {p : Path Bytes} {n : Bytes} (hn : s.fs.kind (n :: p) = some .NF3DIR)
      (h : R.kept (n :: p) ∨ ∃ m, s.fs.kind (m :: n :: p) ≠ none) :
      Grants R .RMDIR (s.handle p, n) none s s

section

variable {R : Refusals Bytes} {s s' : Server} {p : Path Bytes} {n : Bytes} {nfs : NFSClient}

theorem grants_lookup {r : Option (Proc.Ok .LOOKUP)} (hn : s.fs.kind (n :: p) ≠ none)
    (h : Grants R .LOOKUP (s.handle p, n) r s s') :
    s' = s ∧ ∃ obj_attributes dir_attributes,
      r = some (s.handle (n :: p), obj_attributes, dir_attributes) := by
  generalize ha : (s.handle p, n) = a at h
  cases h with
  | lookup hn' => exact ⟨rfl, _, _, by rw [Server.entry_eq hn hn' ha.symm]⟩

/-- A REMOVE does its work, unless the entry is a directory or kept. -/
theorem grants_remove {r : Option WccData} (hn : s.fs.kind (n :: p) ≠ none)
    (h : Grants R .REMOVE (s.handle p, n) r s s') :
    (r.isSome ∧ s.fs.kind (n :: p) ≠ some .NF3DIR ∧ ¬ R.kept (n :: p) ∧ s.Removed s' (n :: p) ∧
        Obeys R s') ∨
      (r = none ∧ (s.fs.kind (n :: p) = some .NF3DIR ∨ R.kept (n :: p)) ∧ s' = s) := by
  generalize ha : (s.handle p, n) = a at h
  cases h with
  | remove hn' hfile hgiven hs hobeys =>
    rw [Server.entry_eq hn hn' ha.symm] at hfile hgiven hs
    exact Or.inl ⟨rfl, hfile, hgiven, hs, hobeys⟩
  | keep hn' h =>
    rw [Server.entry_eq hn hn' ha.symm] at h
    exact Or.inr ⟨rfl, h, rfl⟩

/-- A RMDIR does its work, unless there is something in the directory or it is kept. -/
theorem grants_rmdir {r : Option WccData} (hn : s.fs.kind (n :: p) ≠ none)
    (h : Grants R .RMDIR (s.handle p, n) r s s') :
    (r.isSome ∧ (∀ m, s.fs.kind (m :: n :: p) = none) ∧ ¬ R.kept (n :: p) ∧ s.Removed s' (n :: p) ∧
        Obeys R s') ∨
      (r = none ∧ (R.kept (n :: p) ∨ ∃ m, s.fs.kind (m :: n :: p) ≠ none) ∧ s' = s) := by
  generalize ha : (s.handle p, n) = a at h
  cases h with
  | rmdir hn' hempty hgiven hs hobeys =>
    rw [Server.entry_eq hn (hn' ▸ Option.some_ne_none _) ha.symm] at hempty hgiven hs
    exact Or.inl ⟨rfl, hempty, hgiven, hs, hobeys⟩
  | keepDir hn' h =>
    rw [Server.entry_eq hn (hn' ▸ Option.some_ne_none _) ha.symm] at h
    exact Or.inr ⟨rfl, h, rfl⟩

/-! ### The calls of the cleanup -/

abbrev Serves (R : Refusals Bytes) : Step RpcRequest Received Server := Answers.Serves (Grants R)

abbrev Served (R : Refusals Bytes) : Server → RpcRequest → Prop := Answers.Served (Grants R)

theorem twpM_lookup {post : Except Exn Fh3 → NFSClient → Server → Prop} (hn : s.fs.kind (n :: p) ≠ none)
    (hpost : ∀ nfs, post (.ok ⟨s.handle (n :: p)⟩) nfs s) :
    twpM (Serves R) (Served R) post (call (.lookup ⟨s.handle p⟩ n)) nfs s := by
  have hgrants : Grants R .LOOKUP (s.handle p, n) (some (s.handle (n :: p), none, none)) s s := .lookup hn
  have hable : (Grants R).Able .LOOKUP (s.handle p, n) s :=
    Or.inl ⟨_, s, hgrants, s.handle_fits _ hn, fits_postOpAttr none, fits_postOpAttr none⟩
  refine Answers.twpM_call (c := .lookup ⟨s.handle p⟩ n) (Server.fits_entry hn) hable ?_ ?_
  · intro r nfs s' h
    obtain ⟨rfl, obj_attributes, dir_attributes, hr⟩ := grants_lookup hn h
    obtain rfl := Option.some.inj hr
    exact hpost nfs
  · intro e nfs s' h
    obtain ⟨-, obj_attributes, dir_attributes, hr⟩ := grants_lookup hn h
    cases hr

theorem twpM_remove {post : Except Exn Unit → NFSClient → Server → Prop} (hobeys : Obeys R s)
    (hn : s.fs.kind (n :: p) ≠ none)
    (hgone : s.fs.kind (n :: p) ≠ some .NF3DIR → ¬ R.kept (n :: p) → ∀ nfs s', s.Removed s' (n :: p) →
      Obeys R s' → post (.ok ()) nfs s')
    (hrefused : s.fs.kind (n :: p) = some .NF3DIR ∨ R.kept (n :: p) → ∀ e nfs, post (.error e) nfs s) :
    twpM (Serves R) (Served R) post (call (.remove ⟨s.handle p⟩ n)) nfs s := by
  have hable : (Grants R).Able .REMOVE (s.handle p, n) s := by
    by_cases hkeep : s.fs.kind (n :: p) = some .NF3DIR ∨ R.kept (n :: p)
    · exact Or.inr ⟨s, .keep hn hkeep⟩
    · rw [not_or] at hkeep
      exact Or.inl ⟨(none, none), _, .remove hn hkeep.1 hkeep.2 (s.removed_without _) (hobeys.without _),
        fits_wccData (none, none)⟩
  refine Answers.twpM_call (c := .remove ⟨s.handle p⟩ n) (Server.fits_entry hn) hable ?_ ?_
  · intro r nfs s' h
    rcases grants_remove hn h with ⟨-, hfile, hgiven, hs, hobeys'⟩ | ⟨hr, -, -⟩
    · exact hgone hfile hgiven nfs s' hs hobeys'
    · cases hr
  · intro e nfs s' h
    rcases grants_remove hn h with ⟨hr, -⟩ | ⟨-, hkeep, rfl⟩
    · cases hr
    · exact hrefused hkeep e nfs

theorem twpM_rmdir {post : Except Exn Unit → NFSClient → Server → Prop} (hobeys : Obeys R s)
    (hn : s.fs.kind (n :: p) = some .NF3DIR)
    (hgone : (∀ m, s.fs.kind (m :: n :: p) = none) → ¬ R.kept (n :: p) → ∀ nfs s', s.Removed s' (n :: p) →
      Obeys R s' → post (.ok ()) nfs s')
    (hrefused : R.kept (n :: p) ∨ (∃ m, s.fs.kind (m :: n :: p) ≠ none) → ∀ e nfs, post (.error e) nfs s) :
    twpM (Serves R) (Served R) post (call (.rmdir ⟨s.handle p⟩ n)) nfs s := by
  have hthere : s.fs.kind (n :: p) ≠ none := hn ▸ Option.some_ne_none _
  have hable : (Grants R).Able .RMDIR (s.handle p, n) s := by
    by_cases hkeep : R.kept (n :: p) ∨ ∃ m, s.fs.kind (m :: n :: p) ≠ none
    · exact Or.inr ⟨s, .keepDir hn hkeep⟩
    · rw [not_or, not_exists_not] at hkeep
      exact Or.inl ⟨(none, none), _, .rmdir hn hkeep.2 hkeep.1 (s.removed_without _) (hobeys.without _),
        fits_wccData (none, none)⟩
  refine Answers.twpM_call (c := .rmdir ⟨s.handle p⟩ n) (Server.fits_entry hthere) hable ?_ ?_
  · intro r nfs s' h
    rcases grants_rmdir hthere h with ⟨-, hempty, hgiven, hs, hobeys'⟩ | ⟨hr, -, -⟩
    · exact hgone hempty hgiven nfs s' hs hobeys'
    · cases hr
  · intro e nfs s' h
    rcases grants_rmdir hthere h with ⟨hr, -⟩ | ⟨-, hkeep, rfl⟩
    · cases hr
    · exact hrefused hkeep e nfs

/-- A READDIRPLUS is one of this directory, and changes nothing. -/
theorem grants_readdirplus {a : Bytes × UInt64 × Octets 8 × UInt32 × UInt32}
    {r : Option (Proc.Ok .READDIRPLUS)} (hp : s.fs.kind p = some .NF3DIR) (ha : a.1 = s.handle p)
    (h : Grants R .READDIRPLUS a r s s') :
    s' = s ∧ ((r = none ∧ R.unlisted p) ∨ (¬ R.unlisted p ∧ ∃ attrs page,
      r = some (attrs, page.verf, page.entries, page.eof) ∧ (s.listing p).Answers a.2.1 page)) := by
  have hthere : s.fs.kind p ≠ none := hp ▸ Option.some_ne_none _
  cases h with
  | @list _ p' _ _ _ _ attrs page hp' hlisted hpage =>
    have heq : p' = p := s.handle_inj _ _ (hp' ▸ Option.some_ne_none _) hthere ha
    rw [heq] at hlisted hpage
    exact ⟨rfl, Or.inr ⟨hlisted, attrs, page, rfl, hpage⟩⟩
  | @unlisted _ p' _ hp' h =>
    have heq : p' = p := s.handle_inj _ _ (hp' ▸ Option.some_ne_none _) hthere ha
    rw [heq] at h
    exact ⟨rfl, Or.inl ⟨rfl, h⟩⟩

/-- A page for a place in a listing. -/
theorem able_page {cookie : UInt64} {cookieverf : Octets 8} {dircount maxcount : UInt32}
    (hp : s.fs.kind p = some .NF3DIR) (hlisted : ¬ R.unlisted p) {rest : List EntryPlus}
    (hrest : (s.listing p).Behind cookie rest) :
    (Grants R).Able .READDIRPLUS (s.handle p, cookie, cookieverf, dircount, maxcount) s := by
  have hfits : ∀ e ∈ rest, Wire.entryplus3.Fits e := by
    obtain ⟨pre, hentries, -⟩ := hrest
    intro e he
    exact (s.lists p hp).fits e (hentries ▸ List.mem_append_right pre he)
  have hgrants : Grants R .READDIRPLUS (s.handle p, cookie, cookieverf, dircount, maxcount)
      (some (none, Octets.zero 8, rest, true)) s s :=
    .list hp hlisted (hrest.answers _ (Octets.zero 8))
  exact Or.inl ⟨_, s, hgrants, fits_postOpAttr none, trivial, hfits, trivial⟩

section

variable {post : Except Exn (List DirEntryPlus3) × TcpRpcClient → Server → Prop} {fuel : ℕ}
  {dircount maxcount : UInt32} {rpc : TcpRpcClient}

/-- The first page of a directory that is not listed is refused. -/
theorem twp_loop_unlisted (hp : s.fs.kind p = some .NF3DIR) (hunlisted : R.unlisted p)
    (hpost : ∀ e rpc, post (.error e, rpc) s) : twp (Serves R) (Served R) post
      ((readdirplusPager ⟨s.handle p⟩ dircount maxcount).loop (fuel + 1) 0 (Octets.zero 8) [] rpc) s := by
  have hd : (Fh3.mk (s.handle p)).data.length < 2 ^ 32 := s.handle_fits p (hp ▸ Option.some_ne_none _)
  have hasks :=
    Call.asks (c := .readdirplusPage ⟨s.handle p⟩ 0 (Octets.zero 8) dircount maxcount) hd rpc
  refine ⟨Answers.Able.served (Or.inr ⟨s, .unlisted hp hunlisted⟩) hasks, ?_⟩
  intro received s' hserves
  cases hserves with
  | carries hq ha hr =>
    obtain rfl := hq.proc_eq hasks
    obtain rfl := hq.unique hasks
    obtain ⟨-, ⟨hnone, -⟩ | ⟨hlisted, -⟩⟩ := grants_readdirplus hp rfl ha
    · cases hnone
    · exact absurd hunlisted hlisted
  | refuses hq ha hr =>
    obtain rfl := hq.proc_eq hasks
    obtain rfl := hq.unique hasks
    obtain ⟨rfl, -⟩ := grants_readdirplus hp rfl ha
    obtain ⟨e, he⟩ := Call.result_of_refuses hr
    have hpage : (readdirplusPager ⟨s'.handle p⟩ dircount maxcount).page received = .error e := by
      unfold readdirplusPager
      simp only [he]
      rfl
    simp only [hpage]
    exact hpost e _

/-- The pages of one that is listed are those of its listing. -/
theorem twp_loop_listed (hp : s.fs.kind p = some .NF3DIR) (hlisted : ¬ R.unlisted p)
    (hfuel : (s.listing p).entries.length < fuel)
    (hpost : ∀ rpc, post (.ok ((s.listing p).entries.map EntryPlus.view), rpc) s) :
    twp (Serves R) (Served R) post
      ((readdirplusPager ⟨s.handle p⟩ dircount maxcount).loop fuel 0 (Octets.zero 8) [] rpc) s := by
  have hd : (Fh3.mk (s.handle p)).data.length < 2 ^ 32 := s.handle_fits p (hp ▸ Option.some_ne_none _)
  -- the server stays as it is, wherever the reader of the listing has got to
  refine twp_sim (fun s' _ => s' = s) ?_ ?_ ?_ rfl
    ((readdirplusPager_speaks hd dircount maxcount).loop_logs (s.listing p) hfuel (Octets.zero 8) rpc)
  · rintro s' t q rfl ⟨⟨dircount', maxcount', hasks⟩, rest, hrest⟩
    exact (able_page hp hlisted hrest).served hasks
  · rintro s' t q r s'' rfl ⟨⟨dircount', maxcount', hasks⟩, -⟩ hserves
    cases hserves with
    | carries hq ha hr =>
      obtain rfl := hq.proc_eq hasks
      obtain rfl := hq.unique hasks
      obtain ⟨rfl, ⟨hnone, -⟩ | ⟨-, attrs, page, hsome, hpage⟩⟩ := grants_readdirplus hp rfl ha
      · cases hnone
      · obtain rfl := Option.some.inj hsome
        exact ⟨_, ⟨_, _, page, ⟨dircount', maxcount', hq⟩, hpage, ⟨attrs, hr⟩, rfl⟩, rfl⟩
    | refuses hq ha hr =>
      obtain rfl := hq.proc_eq hasks
      obtain ⟨-, ⟨-, hrefuses⟩ | ⟨-, attrs, page, hsome, -⟩⟩ :=
        grants_readdirplus hp (congrArg Prod.fst (hq.unique hasks)) ha
      · exact absurd hrefuses hlisted
      · cases hsome
  · rintro ⟨r, rpc⟩ s' t rfl ⟨hr, -⟩
    obtain rfl : r = _ := hr
    exact hpost rpc

end

/-- **A directory is listed** completely, or not at all. -/
theorem twpM_readdirplus {post : Except Exn (List DirEntryPlus3) → NFSClient → Server → Prop} {fuel : ℕ}
    {dircount maxcount : UInt32} (hp : s.fs.kind p = some .NF3DIR)
    (hfuel : (s.listing p).entries.length < fuel)
    (hlisted : ¬ R.unlisted p → ∀ nfs, post (.ok ((s.listing p).entries.map EntryPlus.view)) nfs s)
    (hrefused : R.unlisted p → ∀ e nfs, post (.error e) nfs s) :
    twpM (Serves R) (Served R) post
      (NFSClient.onConn (Nfs3.readdirplus fuel ⟨s.handle p⟩ dircount maxcount)) nfs s := by
  refine twpM_onMember.mpr ?_
  unfold twpM Nfs3.readdirplus
  rw [readdirplusLoop_eq]
  by_cases hunlisted : R.unlisted p
  · obtain ⟨fuel, rfl⟩ := Nat.exists_eq_succ_of_ne_zero (Nat.ne_zero_of_lt hfuel)
    exact twp_loop_unlisted hp hunlisted fun e rpc => hrefused hunlisted e ⟨rpc⟩
  · exact twp_loop_listed hp hunlisted hfuel fun rpc => hlisted hunlisted ⟨rpc⟩

end

/-! ### What the cleanup comes to -/

/-- From `s` to `s'` exactly the paths `G` have been removed. -/
structure Cleared (R : Refusals Bytes) (G : Path Bytes → Prop) (s s' : Server) : Prop where
  handle : s'.handle = s.handle
  obeys : Obeys R s'
  gone : ∀ q, G q → s'.fs.kind q = none
  kept : ∀ q, ¬ G q → s'.fs.kind q = s.fs.kind q

/-- What goes of the tree at `d`, and what goes below `d`. -/
def Goes (R : Refusals Bytes) (fs : FileSystem) (d q : Path Bytes) : Prop := d <:+ q ∧ ¬ R.Stays fs d q

def GoesBelow (R : Refusals Bytes) (fs : FileSystem) (d q : Path Bytes) : Prop := Goes R fs d q ∧ q ≠ d

/-- What goes at the entries of `d`. -/
def GoesAt (R : Refusals Bytes) (fs : FileSystem) (d : Path Bytes) (entries : List EntryPlus)
    (q : Path Bytes) : Prop :=
  UnderEntries d entries q ∧ ¬ R.Stays fs d q

section

variable {R : Refusals Bytes} {G H : Path Bytes → Prop} {s s₁ s' : Server} {d q : Path Bytes} {n : Bytes}

theorem Cleared.refl (hobeys : Obeys R s) (hG : ∀ q, G q → s.fs.kind q = none) : Cleared R G s s :=
  ⟨rfl, hobeys, hG, fun _ _ => rfl⟩

theorem Cleared.removed (hs : s.Removed s' q) (hobeys : Obeys R s') : Cleared R (q <:+ ·) s s' where
  handle := hs.handle
  obeys := hobeys
  gone p hp := by rw [hs.fs, s.fs.kind_erase_under hp]
  kept p hp := by rw [hs.fs, s.fs.kind_erase_of_not hp]

theorem Cleared.trans (h : Cleared R G s s₁) (h' : Cleared R H s₁ s') :
    Cleared R (fun q => G q ∨ H q) s s' where
  handle := h'.handle.trans h.handle
  obeys := h'.obeys
  gone q hq := by
    by_cases hH : H q
    · exact h'.gone q hH
    · rw [h'.kept q hH]
      exact h.gone q (hq.resolve_right hH)
  kept q hq := by
    rw [not_or] at hq
    rw [h'.kept q hq.2, h.kept q hq.1]

/-- Only what is there can go. -/
theorem Cleared.congr (h : Cleared R G s s') (hGH : ∀ q, s.fs.kind q ≠ none → (G q ↔ H q)) :
    Cleared R H s s' where
  handle := h.handle
  obeys := h.obeys
  gone q hq := by
    by_cases hG : G q
    · exact h.gone q hG
    · rw [h.kept q hG]
      by_contra hthere
      exact hG ((hGH q hthere).mpr hq)
  kept q hq := by
    by_cases hthere : s.fs.kind q = none
    · by_cases hG : G q
      · rw [h.gone q hG, hthere]
      · exact h.kept q hG
    · exact h.kept q fun hG => hq ((hGH q hthere).mp hG)

theorem Cleared.there (h : Cleared R G s s') (hq : s'.fs.kind q ≠ none) : s.fs.kind q ≠ none := by
  by_cases hG : G q
  · exact absurd (h.gone q hG) hq
  · rwa [← h.kept q hG]

theorem Cleared.size_le (h : Cleared R G s s') : s'.fs.size ≤ s.fs.size :=
  Tree.size_le fun _ hq => h.there hq

end

/-! ### A directory -/

section

variable {R : Refusals Bytes} {s s₁ : Server} {p : Path Bytes} {n : Bytes} {nfs : NFSClient}

/-- What is in a directory that has been cleared. -/
theorem Cleared.entry_iff (h : Cleared R (GoesBelow R s.fs (n :: p)) s s₁) (m : Bytes) :
    s₁.fs.kind (m :: n :: p) ≠ none ↔ R.Stays s.fs (n :: p) (m :: n :: p) := by
  have hne : m :: n :: p ≠ n :: p := Refusals.entry_ne _ List.suffix_rfl
  constructor
  · intro hm
    by_contra hstays
    exact hm (h.gone _ ⟨⟨List.suffix_cons m _, hstays⟩, hne⟩)
  · intro hstays
    rw [h.kept _ fun hgoes => hgoes.1.2 hstays]
    exact hstays.there

/-- **A directory that has been cleared** goes by RMDIR, unless it stays. `S` says what stays at it, for
whom ever it is that clears it. -/
theorem twpM_rmdir_cleared {S : Path Bytes → Prop} (hn : s.fs.kind (n :: p) = some .NF3DIR)
    (hself : S (n :: p) ↔ R.kept (n :: p) ∨ ∃ m, R.Stays s.fs (n :: p) (m :: n :: p))
    (hbelow : ∀ q, n :: p <:+ q → n :: p ≠ q → (S q ↔ R.Stays s.fs (n :: p) q))
    (h : Cleared R (GoesBelow R s.fs (n :: p)) s s₁) :
    twpM (Serves R) (Served R) (fun _ _ s' => Cleared R (fun q => n :: p <:+ q ∧ ¬ S q) s s')
      (call (.rmdir ⟨s.handle p⟩ n)) nfs s₁ := by
  have hn₁ : s₁.fs.kind (n :: p) = some .NF3DIR := by rw [h.kept _ fun hgoes => hgoes.2 rfl, hn]
  rw [← h.handle]
  refine twpM_rmdir h.obeys hn₁ (fun hempty hgiven nfs s' hs hobeys => ?_) fun hkeep e nfs => ?_
  · refine (h.trans (Cleared.removed hs hobeys)).congr fun q hq => ?_
    -- the directory is empty, so that nothing stays
    have hnone : ∀ m, ¬ R.Stays s.fs (n :: p) (m :: n :: p) := fun m hm =>
      (h.entry_iff m).mpr hm (hempty m)
    have hgoes : n :: p <:+ q → ¬ S q := by
      intro hunder hS
      by_cases heq : n :: p = q
      · rw [← heq, hself] at hS
        exact hS.elim hgiven fun hm => hnone hm.choose hm.choose_spec
      · obtain ⟨m, hm⟩ := Refusals.exists_entry_suffix hunder heq
        exact hnone m (((hbelow q hunder heq).mp hS).above hm)
    exact ⟨fun h => h.elim (fun h => ⟨h.1.1, hgoes h.1.1⟩) fun h => ⟨h, hgoes h⟩, fun h => Or.inr h.1⟩
  · refine h.congr fun q hq => ?_
    have hS : S (n :: p) := hself.mpr (hkeep.imp_right fun ⟨m, hm⟩ => ⟨m, (h.entry_iff m).mp hm⟩)
    constructor
    · rintro ⟨⟨hunder, hstays⟩, hne⟩
      exact ⟨hunder, fun h => hstays ((hbelow q hunder hne.symm).mp h)⟩
    · rintro ⟨hunder, hnot⟩
      have hne : n :: p ≠ q := by
        rintro rfl
        exact hnot hS
      exact ⟨⟨hunder, fun h => hnot ((hbelow q hunder hne).mpr h)⟩, hne.symm⟩

end

/-! ### The loop over the entries -/

/-- Entries that are still to be cleared, with what the listing said of them. -/
structure Ahead (R : Refusals Bytes) (s : Server) (d : Path Bytes) (entries : List EntryPlus) : Prop where
  pending : Pending s.fs d entries
  untyped : ∀ e ∈ entries, ¬ IsDot e.name → (e.attrs = none ↔ R.untyped (e.name :: d))
  handles : ∀ e ∈ entries, ¬ IsDot e.name → ∀ fh ∈ e.fh, fh = s.handle (e.name :: d)

section

variable {R : Refusals Bytes} {clear : Fh3 → ClientM NFSClient Unit} {s s₁ : Server} {d : Path Bytes}
  {nfs : NFSClient} {e : EntryPlus} {entries : List EntryPlus}

theorem clearEntry_view (dir : Fh3) (e : EntryPlus) : clearEntry clear dir e.view =
    if IsDot e.name then pure ()
    else swallow <|
      if e.attrs.isSome ∧ (e.attrs.getD Fattr3.zero).type = .NF3DIR then do
        let child ← childFh dir e.view
        clear child
        call (.rmdir dir e.name)
      else call (.remove dir e.name) := rfl

/-- The handle of an entry, from the listing or from the server. -/
theorem twpM_child {post : Except Exn Fh3 → NFSClient → Server → Prop}
    (hn : s.fs.kind (e.name :: d) ≠ none) (hhandles : ∀ fh ∈ e.fh, fh = s.handle (e.name :: d))
    (hpost : ∀ nfs, post (.ok ⟨s.handle (e.name :: d)⟩) nfs s) :
    twpM (Serves R) (Served R) post (childFh ⟨s.handle d⟩ e.view) nfs s := by
  show twpM _ _ post
    (if e.fh.isSome then pure ⟨e.fh.getD []⟩ else call (.lookup ⟨s.handle d⟩ e.name)) nfs s
  by_cases hfh : e.fh.isSome
  · obtain ⟨fh, hsome⟩ := Option.isSome_iff_exists.mp hfh
    rw [if_pos hfh, hsome, hhandles fh hsome]
    exact hpost nfs
  · rw [if_neg hfh]
    exact twpM_lookup hn hpost

theorem twpM_clearEntry (hobeys : Obeys R s) (hlisted : ¬ R.unlisted d) (hdot : ¬ IsDot e.name)
    (h : Ahead R s d (e :: entries))
    (hclear : s.fs.kind (e.name :: d) = some .NF3DIR → ∀ nfs, twpM (Serves R) (Served R)
      (fun r _ s' => r = .ok () ∧ Cleared R (GoesBelow R s.fs (e.name :: d)) s s')
      (clear ⟨s.handle (e.name :: d)⟩) nfs s) :
    twpM (Serves R) (Served R)
      (fun r _ s' => r = .ok () ∧ Cleared R (fun q => e.name :: d <:+ q ∧ ¬ R.Stays s.fs d q) s s')
      (clearEntry clear ⟨s.handle d⟩ e.view) nfs s := by
  have hn := h.pending.mem e List.mem_cons_self hdot
  have hattrs := h.pending.attrs e List.mem_cons_self hdot
  have huntyped := h.untyped e List.mem_cons_self hdot
  rw [clearEntry_view, if_neg hdot, twpM_swallow]
  by_cases hdir : e.attrs.isSome ∧ (e.attrs.getD Fattr3.zero).type = .NF3DIR
  · rw [if_pos hdir]
    obtain ⟨a, ha⟩ := Option.isSome_iff_exists.mp hdir.1
    have hkind : s.fs.kind (e.name :: d) = some .NF3DIR := by
      have htype := hdir.2
      rw [ha] at htype
      rw [hattrs a ha]
      exact congrArg some htype
    have htyped : ¬ R.untyped (e.name :: d) := by
      rw [← huntyped, ha]
      exact Option.some_ne_none a
    refine twpM_bind.mpr (twpM_child hn (h.handles e List.mem_cons_self hdot) fun nfs => ?_)
    refine twpM_bind.mpr (twpM_mono ?_ (hclear hkind nfs))
    rintro _ nfs s₁ ⟨rfl, hcleared⟩
    refine twpM_mono (fun r nfs s' h => ⟨rfl, h⟩) (twpM_rmdir_cleared hkind ?_ ?_ hcleared)
    · exact Refusals.stays_dir_iff hlisted htyped hkind
    · exact fun q hunder hne => Refusals.stays_below_iff hlisted htyped hunder hne
  · rw [if_neg hdir]
    refine twpM_remove hobeys hn (fun hfile hgiven nfs s' hs hobeys' => ⟨rfl, ?_⟩)
      fun hkeep err nfs => ⟨rfl, ?_⟩
    · -- there is nothing under it
      refine (Cleared.removed hs hobeys').congr fun q hq => (and_iff_left_of_imp fun hunder => ?_).symm
      by_cases heq : e.name :: d = q
      · rw [← heq, Refusals.stays_leaf_iff hlisted hn hfile]
        exact hgiven
      · exact absurd (s.fs.kind_above hunder heq hq) hfile
    · refine Cleared.refl hobeys fun q hq => ?_
      by_contra hthere
      refine hq.2 ?_
      by_cases hkind : s.fs.kind (e.name :: d) = some .NF3DIR
      · -- it was not shown to be a directory
        have hnone : e.attrs = none := by
          by_contra hsome
          obtain ⟨a, ha⟩ := Option.ne_none_iff_exists'.mp hsome
          refine hdir ⟨ha ▸ rfl, ?_⟩
          rw [ha]
          exact Option.some.inj ((hattrs a ha).symm.trans hkind)
        exact Refusals.stays_untyped (huntyped.mp hnone) hkind hq.1 hthere
      · have heq : e.name :: d = q := by
          by_contra hne
          exact hkind (s.fs.kind_above hq.1 hne hthere)
        rw [← heq, Refusals.stays_leaf_iff hlisted hn hkind]
        exact hkeep.resolve_left hkind

/-- Another entry has nothing to do with what was cleared at `e`. -/
theorem Ahead.tail (h : Ahead R s d (e :: entries))
    (hcleared : Cleared R (fun q => e.name :: d <:+ q ∧ ¬ R.Stays s.fs d q) s s₁) :
    Ahead R s₁ d entries ∧ ∀ q, UnderEntries d entries q → (R.Stays s₁.fs d q ↔ R.Stays s.fs d q) := by
  have houtside : ∀ q, ¬ e.name :: d <:+ q → s₁.fs.kind q = s.fs.kind q := fun q hq =>
    hcleared.kept q fun hgoes => hq hgoes.1
  have hnotin := (List.nodup_cons.mp h.pending.nodup).1
  refine ⟨⟨(h.pending.tail houtside).1, fun e' he' => h.untyped e' (List.mem_cons_of_mem e he'), ?_⟩, ?_⟩
  · rw [hcleared.handle]
    exact fun e' he' => h.handles e' (List.mem_cons_of_mem e he')
  · rintro q ⟨e', he', -, hunder⟩
    refine Refusals.Stays.congr fun x hx => houtside x ?_
    refine Tree.not_suffix_entry (fun heq => hnotin ?_) (hunder.trans hx)
    exact heq ▸ List.mem_map_of_mem he'

/-- **The loop**, by induction on the entries that are left. -/
theorem twpM_clearEntries {N : ℕ} (hlisted : ¬ R.unlisted d)
    (hclear : ∀ n s nfs, s.fs.size ≤ N → Obeys R s → s.fs.kind (n :: d) = some .NF3DIR →
      twpM (Serves R) (Served R) (fun r _ s' => r = .ok () ∧ Cleared R (GoesBelow R s.fs (n :: d)) s s')
        (clear ⟨s.handle (n :: d)⟩) nfs s) :
    ∀ (entries : List EntryPlus) (s : Server) (nfs : NFSClient), s.fs.size ≤ N → Obeys R s →
      Ahead R s d entries →
      twpM (Serves R) (Served R) (fun r _ s' => r = .ok () ∧ Cleared R (GoesAt R s.fs d entries) s s')
        (clearEntries clear ⟨s.handle d⟩ (entries.map EntryPlus.view)) nfs s
  | [], s, nfs, _, hobeys, _ => by
    refine ⟨rfl, Cleared.refl hobeys fun q hq => ?_⟩
    obtain ⟨e, he, -⟩ := hq.1
    exact absurd he List.not_mem_nil
  | e :: entries, s, nfs, hN, hobeys, h => by
    by_cases hdot : IsDot e.name
    · -- nothing is done for it
      refine twpM_bind.mpr ?_
      rw [clearEntry_view, if_pos hdot]
      have hnone : s.fs.kind (e.name :: d) = none := s.kind_dot hdot
      have hcleared : Cleared R (fun q => e.name :: d <:+ q ∧ ¬ R.Stays s.fs d q) s s := by
        refine Cleared.refl hobeys fun q hq => ?_
        by_contra hthere
        exact s.fs.kind_ne_none_above hq.1 hthere hnone
      have htail := (h.tail hcleared).1
      show twpM (Serves R) (Served R)
        (fun r _ s' => r = .ok () ∧ Cleared R (GoesAt R s.fs d (e :: entries)) s s')
        (clearEntries clear ⟨s.handle d⟩ (entries.map EntryPlus.view)) nfs s
      refine twpM_mono ?_ (twpM_clearEntries hlisted hclear entries s nfs hN hobeys htail)
      rintro r nfs s' ⟨hr, hcleared⟩
      refine ⟨hr, hcleared.congr fun q _ => and_congr_left' ?_⟩
      exact ((List.exists_mem_cons_iff _ e entries).trans (or_iff_right fun h => h.1 hdot)).symm
    · refine twpM_bind.mpr (twpM_mono ?_
        (twpM_clearEntry hobeys hlisted hdot h fun hkind nfs => hclear e.name s nfs hN hobeys hkind))
      rintro _ nfs s₁ ⟨rfl, hcleared⟩
      obtain ⟨htail, hstays⟩ := h.tail hcleared
      have hrest := twpM_clearEntries hlisted hclear entries s₁ nfs (hcleared.size_le.trans hN)
        hcleared.obeys htail
      rw [hcleared.handle] at hrest
      refine twpM_mono ?_ hrest
      rintro r nfs s' ⟨hr, hcleared'⟩
      refine ⟨hr, (hcleared.trans hcleared').congr fun q _ => ?_⟩
      unfold GoesAt
      rw [underEntries_cons hdot, or_and_right]
      exact or_congr Iff.rfl (and_congr_right fun hunder => not_congr (hstays q hunder))

end

/-! ### The recursion -/

section

variable {R : Refusals Bytes} {s : Server} {d : Path Bytes} {nfs : NFSClient}

/-- Everything below a directory is at an entry that is listed. -/
theorem goesAt_listing_iff (hd : s.fs.kind d = some .NF3DIR) {q : Path Bytes} (hq : s.fs.kind q ≠ none) :
    GoesAt R s.fs d (s.listing d).entries q ↔ GoesBelow R s.fs d q := by
  constructor
  · rintro ⟨⟨e, he, hdot, hunder⟩, hstays⟩
    exact ⟨⟨(List.suffix_cons e.name d).trans hunder, hstays⟩, Refusals.entry_ne q hunder⟩
  · rintro ⟨⟨hunder, hstays⟩, hne⟩
    obtain ⟨n, hn⟩ := Refusals.exists_entry_suffix hunder hne.symm
    have hthere := s.fs.kind_ne_none_above hn hq
    have hdot := (s.named n d hthere).1
    obtain ⟨e, he, rfl⟩ := List.mem_map.mp (((s.lists d hd).mem n hdot).mpr hthere)
    exact ⟨⟨e, he, hdot, hn⟩, hstays⟩

theorem Obeys.ahead (h : Obeys R s) (hd : s.fs.kind d = some .NF3DIR) :
    Ahead R s d (s.listing d).entries :=
  ⟨(s.lists d hd).pending, h.untyped d hd, h.handles d hd⟩

/-- **The recursion**, by induction on the depth that is left. -/
theorem twpM_clearDir {N fuel : ℕ} (hfuel : N + 2 < fuel) :
    ∀ (depth : ℕ) (d : Path Bytes) (s : Server) (nfs : NFSClient), s.fs.size ≤ N → Obeys R s →
      s.fs.kind d = some .NF3DIR → N ≤ d.length + depth →
      twpM (Serves R) (Served R) (fun r _ s' => r = .ok () ∧ Cleared R (GoesBelow R s.fs d) s s')
        (clearDir fuel depth ⟨s.handle d⟩) nfs s
  | 0, d, s, nfs, hN, _, hd, hdepth => by
    -- the path of a directory is shorter than that
    have hlt := s.fs.length_lt_size (hd ▸ Option.some_ne_none _)
    omega
  | depth + 1, d, s, nfs, hN, hobeys, hd, hdepth => by
    have hlength := Server.length_listing_le hd
    refine twpM_swallow.mpr (twpM_bind.mpr (twpM_readdirplus hd (by omega) ?_ ?_))
    · intro hlisted nfs
      have hclear : ∀ n s' nfs, s'.fs.size ≤ N → Obeys R s' → s'.fs.kind (n :: d) = some .NF3DIR →
          twpM (Serves R) (Served R)
            (fun r _ s'' => r = .ok () ∧ Cleared R (GoesBelow R s'.fs (n :: d)) s' s'')
            (clearDir fuel depth ⟨s'.handle (n :: d)⟩) nfs s' := by
        intro n s' nfs hN' hobeys' hn
        refine twpM_clearDir hfuel depth (n :: d) s' nfs hN' hobeys' hn ?_
        rw [List.length_cons]
        omega
      refine twpM_mono ?_
        (twpM_clearEntries hlisted hclear (s.listing d).entries s nfs hN hobeys (hobeys.ahead hd))
      rintro r nfs s' ⟨-, hcleared⟩
      exact ⟨rfl, hcleared.congr fun q hq => goesAt_listing_iff hd hq⟩
    · -- nobody gets below it
      intro hunlisted e nfs
      refine ⟨rfl, Cleared.refl hobeys fun q hq => ?_⟩
      by_contra hthere
      exact hq.1.2 (Refusals.stays_of_shut (Or.inl hunlisted) List.suffix_rfl hq.1.1 hq.2.symm hthere)

end

/-- **What is left of a tree** is what stands at or above something that the server does not give up or does
not show. All else of it is removed, and nothing outside of it. The cleanup ends without an exception in any
case. -/
theorem cleanup_leaves (R : Refusals Bytes) (s : Server) (hobeys : Obeys R s) (parent : Path Bytes)
    (name : Bytes) (hdir : s.fs.kind (name :: parent) = some .NF3DIR) (fuel depth : ℕ)
    (hfuel : s.fs.size + 2 < fuel) (hdepth : s.fs.size ≤ depth) (nfs : NFSClient) :
    twpM (Serves R) (Served R)
      (fun r _ s' => r = .ok () ∧
        (∀ q, name :: parent <:+ q → ¬ R.Stays s.fs (name :: parent) q → s'.fs.kind q = none) ∧
        (∀ q, R.Stays s.fs (name :: parent) q → s'.fs.kind q = s.fs.kind q) ∧
        ∀ q, ¬ name :: parent <:+ q → s'.fs.kind q = s.fs.kind q)
      (rmdirRecursive fuel depth ⟨s.handle parent⟩ name) nfs s := by
  have hthere : s.fs.kind (name :: parent) ≠ none := hdir ▸ Option.some_ne_none _
  refine twpM_swallow.mpr (twpM_bind.mpr (twpM_lookup hthere fun nfs => ?_))
  refine twpM_bind.mpr (twpM_mono ?_
    (twpM_clearDir hfuel depth (name :: parent) s nfs le_rfl hobeys hdir (by omega)))
  rintro _ nfs s₁ ⟨rfl, hcleared⟩
  refine twpM_mono ?_ (twpM_rmdir_cleared hdir (Refusals.stays_self_iff hthere)
    (fun q _ _ => Iff.rfl) hcleared)
  rintro r nfs s' h
  refine ⟨rfl, fun q hunder hstays => h.gone q ⟨hunder, hstays⟩, fun q hstays => ?_, fun q hunder => ?_⟩
  · exact h.kept q fun hgoes => hgoes.2 hstays
  · exact h.kept q fun hgoes => hunder hgoes.1

/-! ### Two directories -/

/-- Nothing is kept, and no attributes are shown. -/
def noAttributes : Refusals Bytes where
  kept _ := False
  unlisted _ := False
  untyped _ := True

theorem bare_of_mem {p : Path Bytes} {e : EntryPlus} (he : e ∈ (chainListing p).entries) :
    e.attrs = none ∧ e.fh = none := by
  unfold chainListing at he
  split at he
  · rw [List.mem_singleton.mp he]
    exact ⟨rfl, rfl⟩
  split at he
  · rw [List.mem_singleton.mp he]
    exact ⟨rfl, rfl⟩
  · exact absurd he List.not_mem_nil

theorem chain_obeys : Obeys noAttributes chainServer where
  untyped _ _ _ he _ := iff_of_true (bare_of_mem he).1 trivial
  handles _ _ _ he _ fh hfh := by
    rw [(bare_of_mem he).2] at hfh
    cases hfh

/-- The inner directory is taken for a file, and both stay. -/
theorem chain_cleanup_leaves :
    twpM (Serves noAttributes) (Served noAttributes)
      (fun r _ s' => r = .ok () ∧
        (∀ q, [ascii "d"] <:+ q → ¬ noAttributes.Stays chainFs [ascii "d"] q → s'.fs.kind q = none) ∧
        (∀ q, noAttributes.Stays chainFs [ascii "d"] q → s'.fs.kind q = chainFs.kind q) ∧
        ∀ q, ¬ [ascii "d"] <:+ q → s'.fs.kind q = chainFs.kind q)
      (rmdirRecursive 6 3 ⟨chainServer.handle []⟩ (ascii "d")) ⟨.connect 2049⟩ chainServer :=
  cleanup_leaves noAttributes chainServer chain_obeys [] (ascii "d") (by decide) 6 3
    (Nat.lt_of_le_of_lt (Nat.add_le_add_right size_chainServer 2) (by decide)) size_chainServer _

end Compliance

end NfsClient
