import NfsClient.Bench.Workloads
import NfsClient.Lib.FileTree

/-!
# Recursive cleanup

`rmdir_recursive` and `clear_dir` of the benchmark (main.cpp), which remove the scratch directory of a
run. Which of the two ways an entry is removed in, REMOVE or recursively, is decided by the attributes
that come with it in the listing. These are optional, and an entry without attributes is taken for a
file. The REMOVE of a directory is refused, and the exception ends the cleanup.

So the cleanup removes the tree exactly if no reply left out the attributes of a directory in it
(`cleanup_complete_iff`). It touches nothing outside of the tree in any case. The induction is on the
depth of the tree. What it carries is `Cleans`: what a call has left of the tree, and what was sent to
it; a loop over the entries of a directory carries the same about the entries that are left.
-/

namespace NfsClient

open Xdr Interaction Nfs3 Paging FileTree

namespace Nfs3

def EntryPlus.name (e : EntryPlus) : Bytes := e.2.1

def EntryPlus.attrs (e : EntryPlus) : Option Fattr3 := e.2.2.2.1

/-- An accepted REPLY with a status other than 0. -/
def Refuses (p : Proc) (received : Received) : Prop :=
  ∃ (xid flavor : UInt32) (verf : Bytes) (status : UInt32) (b : p.Fail), verf.length < 2 ^ 32 ∧
    status ≠ 0 ∧ received = .ok (acceptedHeader xid flavor verf ++ p.failBytes status b)

theorem Call.result_of_refuses {c : Call} {received : Received} (h : Refuses c.proc received) :
    ∃ e, c.result received = .error e := by
  obtain ⟨xid, flavor, verf, status, b, hverf, hstatus, rfl⟩ := h
  have hparse : Except.bind (.ok (acceptedHeader xid flavor verf ++ c.proc.failBytes status b))
      parseReply = .ok (c.proc.failBytes status b) := parseReply_accepted xid flavor hverf _
  have hdecode := c.decodeReply_fail hstatus b []
  rw [List.append_nil] at hdecode
  refine ⟨.nfsError status c.proc.name, ?_⟩
  unfold Call.result
  rw [hparse]
  change (c.decodeReply (c.proc.failBytes status b)).map Prod.fst = _
  rw [hdecode]
  rfl

end Nfs3

namespace Bench

/-! ### The cleanup -/

/-- The names that a directory has for itself and its parent. -/
def IsDot (name : Bytes) : Prop := name = ascii "." ∨ name = ascii ".."

instance (name : Bytes) : Decidable (IsDot name) := inferInstanceAs (Decidable (_ ∨ _))

/-- One turn of the loop of `clear_dir`; `rmdir` is `rmdir_recursive`. -/
def clearEntry (rmdir : Fh3 → Bytes → ClientM NFSClient Unit) (dir : Fh3) (entry : DirEntryPlus3) :
    ClientM NFSClient Unit :=
  if IsDot entry.name then return ()
  else if entry.has_attrs ∧ entry.attrs.type = .NF3DIR then rmdir dir entry.name
  -- also where the server gave no attributes: a directory then fails the REMOVE
  else call (.remove dir entry.name)

def clearEntries (rmdir : Fh3 → Bytes → ClientM NFSClient Unit) (dir : Fh3) :
    List DirEntryPlus3 → ClientM NFSClient Unit
  | [] => return ()
  | entry :: entries => do
    clearEntry rmdir dir entry
    clearEntries rmdir dir entries

/-- `fuel` is for the pages of the listing. -/
def clearDir (rmdir : Fh3 → Bytes → ClientM NFSClient Unit) (fuel : ℕ) (dir : Fh3) :
    ClientM NFSClient Unit := do
  let entries ← NFSClient.onConn (Nfs3.readdirplus fuel dir 4096 32768)
  clearEntries rmdir dir entries

/-- The recursion has no bound of its own either; it is cut off at a depth. -/
def rmdirRecursive (fuel : ℕ) : ℕ → Fh3 → Bytes → ClientM NFSClient Unit
  | 0, _, _ => ClientM.cut
  | depth + 1, parent, name => do
    let dir_fh ← call (.lookup parent name)
    clearDir (rmdirRecursive fuel depth) fuel dir_fh
    call (.rmdir parent name)

/-! ### The server -/

/-- What a server has exported: directories and other things, by their names. -/
abbrev FileSystem : Type := Tree Bytes Ftype3 .NF3DIR

/-- The listing of the directory `p`: its entries, once each, and maybe the two names with dots. What
attributes there are give the type that the entry has. -/
structure Lists (fs : FileSystem) (p : Path Bytes) (L : Listing EntryPlus.cookie 0) : Prop where
  nodup : (L.entries.map EntryPlus.name).Nodup
  mem : ∀ n, ¬ IsDot n → (n ∈ L.entries.map EntryPlus.name ↔ fs.kind (n :: p) ≠ none)
  attrs : ∀ e ∈ L.entries, ¬ IsDot e.name → ∀ a ∈ e.attrs, fs.kind (e.name :: p) = some a.type
  fits : ∀ e ∈ L.entries, Wire.entryplus3.Fits e

/-- An entry that was sent in a reply to READDIRPLUS, and the type of what it stands for. -/
structure Sent where
  kind : Option Ftype3
  entry : EntryPlus

/-- A server: its file system, the handles that it has given to what is there, how it is going to list
each directory, and the entries that it has sent. -/
structure Server where
  fs : FileSystem
  handle : Path Bytes → Bytes
  listing : Path Bytes → Listing EntryPlus.cookie 0
  sent : List Sent
  named : ∀ n p, fs.kind (n :: p) ≠ none → ¬ IsDot n ∧ n.length < 2 ^ 32
  handle_inj : ∀ p q, fs.kind p ≠ none → fs.kind q ≠ none → handle p = handle q → p = q
  handle_fits : ∀ p, fs.kind p ≠ none → (handle p).length < 2 ^ 32
  lists : ∀ p, fs.kind p = some .NF3DIR → Lists fs p (listing p)

/-- The listing without what has been removed. -/
theorem Lists.erase {fs : FileSystem} {p : Path Bytes} {L : Listing EntryPlus.cookie 0}
    (h : Lists fs p L) (q : Path Bytes) :
    Lists (fs.erase q) p
      (L.filter fun e => decide (IsDot e.name ∨ (fs.erase q).kind (e.name :: p) ≠ none)) where
  nodup := h.nodup.sublist (L.entries.filter_sublist.map EntryPlus.name)
  mem n hn := by
    constructor
    · intro hmem
      obtain ⟨e, he, rfl⟩ := List.mem_map.mp hmem
      -- what the filter leaves is dotted or still there
      exact (of_decide_eq_true (List.mem_filter.mp he).2).resolve_left hn
    · intro hkind
      have hmem := (h.mem n hn).mpr ((fs.kind_erase_ne_none hkind).1 ▸ hkind)
      obtain ⟨e, he, rfl⟩ := List.mem_map.mp hmem
      exact List.mem_map.mpr ⟨e, List.mem_filter.mpr ⟨he, decide_eq_true (Or.inr hkind)⟩, rfl⟩
  attrs e he hn a ha := by
    obtain ⟨he, hkeep⟩ := List.mem_filter.mp he
    have hkind := (of_decide_eq_true hkeep).resolve_left hn
    rw [(fs.kind_erase_ne_none hkind).1]
    exact h.attrs e he hn a ha
  fits e he := h.fits e (List.mem_filter.mp he).1

namespace Server

/-- The server has sent entries of the directory `p`. -/
def sends (s : Server) (p : Path Bytes) (entries : List EntryPlus) : Server :=
  { s with sent := s.sent ++ entries.map fun e => ⟨s.fs.kind (e.name :: p), e⟩ }

/-- From `s` to `s'` the server has removed `q`. It may list the directories in another way then. -/
structure Removed (s s' : Server) (q : Path Bytes) : Prop where
  fs : s'.fs = s.fs.erase q
  handle : s'.handle = s.handle
  sent : s'.sent = s.sent

/-- The server without `q`, its listings being what is left of them. -/
def without (s : Server) (q : Path Bytes) : Server where
  fs := s.fs.erase q
  handle := s.handle
  listing p := (s.listing p).filter fun e =>
    decide (IsDot e.name ∨ (s.fs.erase q).kind (e.name :: p) ≠ none)
  sent := s.sent
  named n p h := s.named n p ((s.fs.kind_erase_ne_none h).1 ▸ h)
  handle_inj p p' h h' := s.handle_inj p p' ((s.fs.kind_erase_ne_none h).1 ▸ h)
    ((s.fs.kind_erase_ne_none h').1 ▸ h')
  handle_fits p h := s.handle_fits p ((s.fs.kind_erase_ne_none h).1 ▸ h)
  lists p h := by
    have hkind := (s.fs.kind_erase_ne_none (h ▸ Option.some_ne_none _)).1
    exact (s.lists p (hkind ▸ h)).erase q

theorem removed_without (s : Server) (q : Path Bytes) : s.Removed (s.without q) q := ⟨rfl, rfl, rfl⟩

/-- The server. It sends a listing in any pages, refuses to REMOVE a directory, and to RMDIR one that has
entries. -/
inductive Serves : Step RpcRequest Received Server
  | lookup {s : Server} {q : RpcRequest} {r : Received} {p : Path Bytes} {n : Bytes}
      {obj_attributes dir_attributes : Option Fattr3} (hq : Asks .LOOKUP q (s.handle p, n))
      (hn : s.fs.kind (n :: p) ≠ none)
      (hr : Carries .LOOKUP r (s.handle (n :: p), obj_attributes, dir_attributes)) : Serves s q r s
  | readdirplus {s : Server} {q : RpcRequest} {r : Received} {p : Path Bytes} {cookie : UInt64}
      {cookieverf : Octets 8} {page : Page (Octets 8) EntryPlus}
      (hq : AsksReaddirplus ⟨s.handle p⟩ q cookie cookieverf) (hp : s.fs.kind p = some .NF3DIR)
      (hpage : (s.listing p).Answers cookie page) (hr : CarriesReaddirplus r page) :
      Serves s q r (s.sends p page.entries)
  | remove {s s' : Server} {q : RpcRequest} {r : Received} {p : Path Bytes} {n : Bytes} {t : Ftype3}
      {wcc : WccData} (hq : Asks .REMOVE q (s.handle p, n)) (hn : s.fs.kind (n :: p) = some t)
      (ht : t ≠ .NF3DIR) (hr : Carries .REMOVE r wcc) (hs : s.Removed s' (n :: p)) : Serves s q r s'
  | removeDir {s : Server} {q : RpcRequest} {r : Received} {p : Path Bytes} {n : Bytes}
      (hq : Asks .REMOVE q (s.handle p, n)) (hn : s.fs.kind (n :: p) = some .NF3DIR)
      (hr : Refuses .REMOVE r) : Serves s q r s
  | rmdir {s s' : Server} {q : RpcRequest} {r : Received} {p : Path Bytes} {n : Bytes} {wcc : WccData}
      (hq : Asks .RMDIR q (s.handle p, n)) (hn : s.fs.kind (n :: p) = some .NF3DIR)
      (hempty : ∀ m, s.fs.kind (m :: n :: p) = none) (hr : Carries .RMDIR r wcc)
      (hs : s.Removed s' (n :: p)) : Serves s q r s'
  | rmdirNotEmpty {s : Server} {q : RpcRequest} {r : Received} {p : Path Bytes} {m n : Bytes}
      (hq : Asks .RMDIR q (s.handle p, n)) (hn : s.fs.kind (n :: p) = some .NF3DIR)
      (hm : s.fs.kind (m :: n :: p) ≠ none) (hr : Refuses .RMDIR r) : Serves s q r s

/-- The server has an answer. -/
def Served (s : Server) (q : RpcRequest) : Prop := ∃ r s', Serves s q r s'

/-! ### Answers -/

section

variable {s s' : Server} {r : Received} {p : Path Bytes} {n : Bytes} {rpc : TcpRpcClient}

theorem kind_parent (hn : s.fs.kind (n :: p) ≠ none) : s.fs.kind p ≠ none :=
  s.fs.closed n p hn ▸ Option.some_ne_none _

/-- A handle and a name stand for one entry. -/
theorem entry_eq {p' : Path Bytes} {n' : Bytes} (hn : s.fs.kind (n :: p) ≠ none)
    (hn' : s.fs.kind (n' :: p') ≠ none) (h : (s.handle p', n') = (s.handle p, n)) :
    n' :: p' = n :: p := by
  obtain ⟨hhandle, rfl⟩ := Prod.mk.inj h
  rw [s.handle_inj _ _ (kind_parent hn') (kind_parent hn) hhandle]

theorem fits_entry (hn : s.fs.kind (n :: p) ≠ none) :
    (s.handle p).length < 2 ^ 32 ∧ n.length < 2 ^ 32 :=
  ⟨s.handle_fits p (kind_parent hn), (s.named n p hn).2⟩

theorem asks_lookup (hn : s.fs.kind (n :: p) ≠ none) :
    Asks .LOOKUP ((Call.lookup ⟨s.handle p⟩ n).request rpc) (s.handle p, n) :=
  Call.asks (c := .lookup ⟨s.handle p⟩ n) (fits_entry hn) rpc

theorem asks_remove (hn : s.fs.kind (n :: p) ≠ none) :
    Asks .REMOVE ((Call.remove ⟨s.handle p⟩ n).request rpc) (s.handle p, n) :=
  Call.asks (c := .remove ⟨s.handle p⟩ n) (fits_entry hn) rpc

theorem asks_rmdir (hn : s.fs.kind (n :: p) ≠ none) :
    Asks .RMDIR ((Call.rmdir ⟨s.handle p⟩ n).request rpc) (s.handle p, n) :=
  Call.asks (c := .rmdir ⟨s.handle p⟩ n) (fits_entry hn) rpc

theorem serves_lookup (hn : s.fs.kind (n :: p) ≠ none)
    (h : Serves s ((Call.lookup ⟨s.handle p⟩ n).request rpc) r s') :
    (Call.lookup ⟨s.handle p⟩ n).result r = .ok ⟨s.handle (n :: p)⟩ ∧ s' = s := by
  cases h with
  | lookup hq hn' hr =>
    rw [entry_eq hn hn' ((asks_lookup hn).unique hq).symm] at hr
    exact ⟨Call.result_of_carries (c := .lookup ⟨s.handle p⟩ n) hr, rfl⟩
  | readdirplus hq =>
    obtain ⟨dircount, maxcount, hq⟩ := hq
    exact absurd hq (Call.not_asks Proc.noConfusion rpc _)
  | remove hq => exact absurd hq (Call.not_asks Proc.noConfusion rpc _)
  | removeDir hq => exact absurd hq (Call.not_asks Proc.noConfusion rpc _)
  | rmdir hq => exact absurd hq (Call.not_asks Proc.noConfusion rpc _)
  | rmdirNotEmpty hq => exact absurd hq (Call.not_asks Proc.noConfusion rpc _)

/-- A REMOVE does its work, or is refused because the entry is a directory. -/
theorem serves_remove (hn : s.fs.kind (n :: p) ≠ none)
    (h : Serves s ((Call.remove ⟨s.handle p⟩ n).request rpc) r s') :
    (s.fs.kind (n :: p) ≠ some .NF3DIR ∧ (Call.remove ⟨s.handle p⟩ n).result r = .ok () ∧
        s.Removed s' (n :: p)) ∨
      (s.fs.kind (n :: p) = some .NF3DIR ∧
        (∃ e, (Call.remove ⟨s.handle p⟩ n).result r = .error e) ∧ s' = s) := by
  cases h with
  | lookup hq => exact absurd hq (Call.not_asks Proc.noConfusion rpc _)
  | readdirplus hq =>
    obtain ⟨dircount, maxcount, hq⟩ := hq
    exact absurd hq (Call.not_asks Proc.noConfusion rpc _)
  | @remove _ _ _ _ p' n' t wcc hq hn' ht hr hs =>
    -- the handle and the name fix the path that the server has looked up
    have heq := entry_eq hn (hn' ▸ Option.some_ne_none t) ((asks_remove hn).unique hq).symm
    rw [heq] at hn' hs
    refine Or.inl ⟨?_, Call.result_of_carries (c := .remove ⟨s.handle p⟩ n) hr, hs⟩
    rw [hn']
    exact fun h => ht (Option.some.inj h)
  | removeDir hq hn' hr =>
    have heq := entry_eq hn (hn' ▸ Option.some_ne_none _) ((asks_remove hn).unique hq).symm
    exact Or.inr ⟨heq ▸ hn', Call.result_of_refuses (c := .remove ⟨s.handle p⟩ n) hr, rfl⟩
  | rmdir hq => exact absurd hq (Call.not_asks Proc.noConfusion rpc _)
  | rmdirNotEmpty hq => exact absurd hq (Call.not_asks Proc.noConfusion rpc _)

/-- The RMDIR of an empty directory does its work. -/
theorem serves_rmdir (hn : s.fs.kind (n :: p) = some .NF3DIR)
    (hempty : ∀ m, s.fs.kind (m :: n :: p) = none)
    (h : Serves s ((Call.rmdir ⟨s.handle p⟩ n).request rpc) r s') :
    (Call.rmdir ⟨s.handle p⟩ n).result r = .ok () ∧ s.Removed s' (n :: p) := by
  have hsome : s.fs.kind (n :: p) ≠ none := hn ▸ Option.some_ne_none _
  cases h with
  | lookup hq => exact absurd hq (Call.not_asks Proc.noConfusion rpc _)
  | readdirplus hq =>
    obtain ⟨dircount, maxcount, hq⟩ := hq
    exact absurd hq (Call.not_asks Proc.noConfusion rpc _)
  | remove hq => exact absurd hq (Call.not_asks Proc.noConfusion rpc _)
  | removeDir hq => exact absurd hq (Call.not_asks Proc.noConfusion rpc _)
  | rmdir hq hn' _ hr hs =>
    have heq := entry_eq hsome (hn' ▸ Option.some_ne_none _) ((asks_rmdir hsome).unique hq).symm
    exact ⟨Call.result_of_carries (c := .rmdir ⟨s.handle p⟩ n) hr, heq ▸ hs⟩
  -- the server that refuses would have to have an entry in it
  | rmdirNotEmpty hq hn' hm =>
    have heq := entry_eq hsome (hn' ▸ Option.some_ne_none _) ((asks_rmdir hsome).unique hq).symm
    rw [heq] at hm
    exact absurd (hempty _) hm

/-! ### There are answers -/

theorem served_lookup (hn : s.fs.kind (n :: p) ≠ none) :
    Served s ((Call.lookup ⟨s.handle p⟩ n).request rpc) := by
  obtain ⟨r, hr⟩ := exists_carries (p := .LOOKUP) (r := (s.handle (n :: p), none, none))
    ⟨s.handle_fits _ hn, fits_postOpAttr none, fits_postOpAttr none⟩
  exact ⟨r, s, .lookup (asks_lookup hn) hn hr⟩

theorem served_remove (hn : s.fs.kind (n :: p) ≠ none) :
    Served s ((Call.remove ⟨s.handle p⟩ n).request rpc) := by
  obtain ⟨t, ht⟩ := Option.ne_none_iff_exists'.mp hn
  by_cases hdir : t = .NF3DIR
  · exact ⟨_, s, .removeDir (asks_remove hn) (hdir ▸ ht)
      ⟨1, 0, [], 21, (none, none), by decide, by decide, rfl⟩⟩
  · obtain ⟨r, hr⟩ := exists_carries (p := .REMOVE) (fits_wccData (none, none))
    exact ⟨r, _, .remove (asks_remove hn) ht hdir hr (s.removed_without _)⟩

theorem served_rmdir (hn : s.fs.kind (n :: p) = some .NF3DIR)
    (hempty : ∀ m, s.fs.kind (m :: n :: p) = none) :
    Served s ((Call.rmdir ⟨s.handle p⟩ n).request rpc) := by
  obtain ⟨r, hr⟩ := exists_carries (p := .RMDIR) (fits_wccData (none, none))
  exact ⟨r, _, .rmdir (asks_rmdir (hn ▸ Option.some_ne_none _)) hn hempty hr (s.removed_without _)⟩

/-- A page for a place in a listing. -/
theorem served_readdirplus {q : RpcRequest} {cookie : UInt64} {cookieverf : Octets 8}
    (hp : s.fs.kind p = some .NF3DIR) (hq : AsksReaddirplus ⟨s.handle p⟩ q cookie cookieverf)
    {rest : List EntryPlus} (hrest : (s.listing p).Behind cookie rest) : Served s q := by
  have hfits : ∀ e ∈ rest, Wire.entryplus3.Fits e := by
    obtain ⟨pre, hentries, -⟩ := hrest
    intro e he
    exact (s.lists p hp).fits e (hentries ▸ List.mem_append_right pre he)
  obtain ⟨r, hr⟩ := exists_carries (p := .READDIRPLUS) (r := (none, Octets.zero 8, rest, true))
    ⟨fits_postOpAttr none, trivial, hfits, trivial⟩
  exact ⟨r, _, .readdirplus hq hp (hrest.answers _ (Octets.zero 8)) ⟨none, hr⟩⟩

end

/-! ### The calls of the cleanup -/

section

variable {s : Server} {p : Path Bytes} {n : Bytes} {nfs : NFSClient}

theorem twpM_lookup {post : Except Exn Fh3 → NFSClient → Server → Prop}
    (hn : s.fs.kind (n :: p) ≠ none) (hpost : ∀ nfs, post (.ok ⟨s.handle (n :: p)⟩) nfs s) :
    twpM Serves Served post (call (.lookup ⟨s.handle p⟩ n)) nfs s := by
  refine twpM_client_call.mpr ⟨served_lookup hn, fun r s' h => ?_⟩
  obtain ⟨hr, rfl⟩ := serves_lookup hn h
  rw [hr]
  exact hpost _

theorem twpM_remove {post : Except Exn Unit → NFSClient → Server → Prop}
    (hn : s.fs.kind (n :: p) ≠ none)
    (hfile : s.fs.kind (n :: p) ≠ some .NF3DIR → ∀ nfs s', s.Removed s' (n :: p) →
      post (.ok ()) nfs s')
    (hdir : s.fs.kind (n :: p) = some .NF3DIR → ∀ e nfs, post (.error e) nfs s) :
    twpM Serves Served post (call (.remove ⟨s.handle p⟩ n)) nfs s := by
  refine (twpM_client_call (c := .remove ⟨s.handle p⟩ n)).mpr ⟨served_remove hn, fun r s' h => ?_⟩
  rcases serves_remove hn h with ⟨hkind, hr, hs⟩ | ⟨hkind, ⟨e, hr⟩, rfl⟩
  · rw [hr]
    exact hfile hkind _ s' hs
  · rw [hr]
    exact hdir hkind e _

theorem twpM_rmdir {post : Except Exn Unit → NFSClient → Server → Prop}
    (hn : s.fs.kind (n :: p) = some .NF3DIR) (hempty : ∀ m, s.fs.kind (m :: n :: p) = none)
    (hpost : ∀ nfs s', s.Removed s' (n :: p) → post (.ok ()) nfs s') :
    twpM Serves Served post (call (.rmdir ⟨s.handle p⟩ n)) nfs s := by
  refine (twpM_client_call (c := .rmdir ⟨s.handle p⟩ n)).mpr
    ⟨served_rmdir hn hempty, fun r s' h => ?_⟩
  obtain ⟨hr, hs⟩ := serves_rmdir hn hempty h
  rw [hr]
  exact hpost _ s' hs

theorem sends_nil (s : Server) (p : Path Bytes) : s.sends p [] = s := by
  unfold sends
  rw [List.map_nil, List.append_nil]

theorem sends_append (s : Server) (p : Path Bytes) (xs ys : List EntryPlus) :
    (s.sends p xs).sends p ys = s.sends p (xs ++ ys) := by
  unfold sends
  rw [List.append_assoc, ← List.map_append]

/-- A listing is read completely, and changes nothing but what has been sent. -/
theorem twpM_readdirplus {post : Except Exn (List DirEntryPlus3) → NFSClient → Server → Prop}
    {fuel : ℕ} {dircount maxcount : UInt32} (hp : s.fs.kind p = some .NF3DIR)
    (hfuel : (s.listing p).entries.length < fuel)
    (hpost : ∀ nfs, post (.ok ((s.listing p).entries.map EntryPlus.view)) nfs
      (s.sends p (s.listing p).entries)) :
    twpM Serves Served post
      (NFSClient.onConn (Nfs3.readdirplus fuel ⟨s.handle p⟩ dircount maxcount)) nfs s := by
  have hd : (Fh3.mk (s.handle p)).data.length < 2 ^ 32 :=
    s.handle_fits p (hp ▸ Option.some_ne_none _)
  have hloop := (readdirplusPager_speaks hd dircount maxcount).loop_logs
    (s.listing p) hfuel (Octets.zero 8) nfs.nfs_conn_
  rw [← readdirplusLoop_eq] at hloop
  refine twpM_onMember.mpr
    -- the server is where it began, but for the entries of the pages so far
    (twp_sim (fun s' t => s' = s.sends p t.2) ?_ ?_ ?_ (s.sends_nil p).symm hloop)
  · rintro s' t q rfl ⟨hexpects, rest, hrest⟩
    exact served_readdirplus hp hexpects hrest
  · rintro s' t q r s'' rfl ⟨⟨dircount', maxcount', hasks⟩, -⟩ hserves
    cases hserves with
    | @readdirplus _ _ _ p' cookie cookieverf page hq hp' hpage hr =>
      obtain ⟨dircount'', maxcount'', hq'⟩ := id hq
      -- a handle stands for one path only, so the page is one of this directory
      have hhandle : s.handle p' = s.handle p := (Prod.mk.inj (hq'.unique hasks)).1
      have heq : p' = p := s.handle_inj _ _ (hp' ▸ Option.some_ne_none _)
        (hp ▸ Option.some_ne_none _) hhandle
      subst heq
      exact ⟨_, ⟨cookie, cookieverf, page, hq, hpage, hr, rfl⟩, s.sends_append _ _ _⟩
    | lookup hq => exact Proc.noConfusion (hq.proc_eq hasks)
    | remove hq => exact Proc.noConfusion (hq.proc_eq hasks)
    | removeDir hq => exact Proc.noConfusion (hq.proc_eq hasks)
    | rmdir hq => exact Proc.noConfusion (hq.proc_eq hasks)
    | rmdirNotEmpty hq => exact Proc.noConfusion (hq.proc_eq hasks)
  · rintro ⟨r, rpc⟩ s' t rfl ⟨hr, hsent⟩
    rw [hr, hsent]
    exact hpost _

end

/-- A directory has at most two names more in its listing than it has entries. -/
theorem length_listing_le {s : Server} {p : Path Bytes} (hp : s.fs.kind p = some .NF3DIR) :
    (s.listing p).entries.length ≤ s.fs.size + 2 := by
  have hlists := s.lists p hp
  -- the listing splits into `.` and `..` and the names of entries
  have hdots : ((s.listing p).entries.map EntryPlus.name |>.filter fun n => decide (IsDot n)).length
      ≤ 2 := by
    have hsub : ((s.listing p).entries.map EntryPlus.name |>.filter fun n => decide (IsDot n)) ⊆
        [ascii ".", ascii ".."] := by
      intro n hn
      rcases of_decide_eq_true (List.mem_filter.mp hn).2 with rfl | rfl
      · exact List.mem_cons_self
      · exact List.mem_cons_of_mem _ List.mem_cons_self
    exact (List.subperm_of_subset (hlists.nodup.filter _) hsub).length_le
  have hentries : ((s.listing p).entries.map EntryPlus.name |>.filter fun n =>
      !decide (IsDot n)).length ≤ s.fs.size := by
    refine s.fs.length_le_size (p := p) (hlists.nodup.filter _) fun n hn => ?_
    obtain ⟨hmem, hkeep⟩ := List.mem_filter.mp hn
    have hdot : ¬ IsDot n := by
      intro hdot
      rw [decide_eq_true hdot] at hkeep
      cases hkeep
    exact (hlists.mem n hdot).mp hmem
  have hsplit := List.length_eq_length_filter_add (l := (s.listing p).entries.map EntryPlus.name)
    fun n => decide (IsDot n)
  rw [List.length_map] at hsplit
  omega

end Server

/-! ### What the cleanup comes to -/

/-- All directories among the entries have come with their attributes. -/
def Shown (sent : List Sent) : Prop := ∀ x ∈ sent, x.kind = some .NF3DIR → x.entry.attrs.isSome

/-- What comes of a call that is to remove the paths `P`, if `C` holds: from `s` to `s'`, with the result
`r`, while `sent` was sent. -/
structure Cleans (P : Path Bytes → Prop) (C : Prop) (s : Server) (r : Except Exn Unit) (s' : Server)
    (sent : List Sent) : Prop where
  handle : s'.handle = s.handle
  log : s'.sent = s.sent ++ sent
  /-- Nothing else is touched, and nothing changes its type. -/
  outside : ∀ q, ¬ P q → s'.fs.kind q = s.fs.kind q
  kept : ∀ q, s'.fs.kind q ≠ none → s'.fs.kind q = s.fs.kind q
  ends : (r = .ok () ∧ (C ∧ Shown sent) ∧ ∀ q, P q → s'.fs.kind q = none) ∨
    (∃ e, r = .error e) ∧ ¬ (C ∧ Shown sent)

/-- What is under one of the entries, the names with dots aside. -/
def UnderEntries (d : Path Bytes) (entries : List EntryPlus) (q : Path Bytes) : Prop :=
  ∃ e ∈ entries, ¬ IsDot e.name ∧ e.name :: d <:+ q

/-- The directories among the entries have attributes. -/
def Typed (fs : FileSystem) (d : Path Bytes) (entries : List EntryPlus) : Prop :=
  ∀ e ∈ entries, fs.kind (e.name :: d) = some .NF3DIR → e.attrs.isSome

/-- Entries that are still to be removed: they are there, and their attributes are right. -/
structure Pending (fs : FileSystem) (d : Path Bytes) (entries : List EntryPlus) : Prop where
  nodup : (entries.map EntryPlus.name).Nodup
  mem : ∀ e ∈ entries, ¬ IsDot e.name → fs.kind (e.name :: d) ≠ none
  attrs : ∀ e ∈ entries, ¬ IsDot e.name → ∀ a ∈ e.attrs, fs.kind (e.name :: d) = some a.type

section

variable {s s₁ s' : Server} {P Q : Path Bytes → Prop} {C D : Prop} {r : Except Exn Unit}
  {sent sent₁ sent₂ : List Sent} {d : Path Bytes} {n : Bytes}

theorem shown_append : Shown (sent₁ ++ sent₂) ↔ Shown sent₁ ∧ Shown sent₂ := List.forall_mem_append

/-- The names with dots stand for no entry. -/
theorem Server.kind_dot (s : Server) (h : IsDot n) : s.fs.kind (n :: d) = none := by
  by_contra hn
  exact (s.named n d hn).1 h

theorem Cleans.congr (h : Cleans P C s r s' sent) (hP : ∀ q, P q ↔ Q q) (hC : C ↔ D) :
    Cleans Q D s r s' sent := by
  obtain rfl : P = Q := funext fun q => propext (hP q)
  obtain rfl : C = D := propext hC
  exact h

/-- Nothing is done. -/
theorem Cleans.refl (hP : ∀ q, ¬ P q) (hC : C) : Cleans P C s (.ok ()) s [] where
  handle := rfl
  log := (List.append_nil s.sent).symm
  outside _ _ := rfl
  kept _ _ := rfl
  ends := Or.inl ⟨rfl, ⟨hC, fun _ hx => absurd hx List.not_mem_nil⟩, fun q hq => absurd hq (hP q)⟩

/-- A path with nothing under it is removed. -/
theorem Cleans.removed {q : Path Bytes} (h : s.Removed s' q) (hC : C) :
    Cleans (q <:+ ·) C s (.ok ()) s' [] where
  handle := h.handle
  log := h.sent.trans (List.append_nil s.sent).symm
  outside q' hq' := by rw [h.fs, s.fs.kind_erase_of_not hq']
  kept q' hq' := by
    rw [h.fs] at hq' ⊢
    exact (s.fs.kind_erase_ne_none hq').1
  ends := Or.inl ⟨rfl, ⟨hC, fun _ hx => absurd hx List.not_mem_nil⟩, fun q' hq' => by
    rw [h.fs, s.fs.kind_erase_under hq']⟩

/-- A call is refused. -/
theorem Cleans.refused {e : Exn} (hC : ¬ C) : Cleans P C s (.error e) s [] where
  handle := rfl
  log := (List.append_nil s.sent).symm
  outside _ _ := rfl
  kept _ _ := rfl
  ends := Or.inr ⟨⟨e, rfl⟩, fun h => hC h.1⟩

/-- One call after the other. -/
theorem Cleans.trans (h₁ : Cleans P C s (.ok ()) s₁ sent₁) (h₂ : Cleans Q D s₁ r s' sent₂) :
    Cleans (fun q => P q ∨ Q q) (C ∧ D) s r s' (sent₁ ++ sent₂) where
  handle := h₂.handle.trans h₁.handle
  log := by rw [h₂.log, h₁.log, List.append_assoc]
  outside q hq :=
    (h₂.outside q fun h => hq (Or.inr h)).trans (h₁.outside q fun h => hq (Or.inl h))
  kept q hq := by
    have hq₁ := h₂.kept q hq
    rw [hq₁] at hq ⊢
    exact h₁.kept q hq
  ends := by
    obtain ⟨-, ⟨hC, hshown₁⟩, hP⟩ | ⟨⟨e, he⟩, -⟩ := h₁.ends
    · rcases h₂.ends with ⟨hr, ⟨hD, hshown₂⟩, hQ⟩ | ⟨hr, hbad⟩
      · refine Or.inl ⟨hr, ⟨⟨hC, hD⟩, shown_append.mpr ⟨hshown₁, hshown₂⟩⟩, fun q hq => ?_⟩
        rcases hq with hq | hq
        · -- what is gone does not come back
          by_contra hne
          exact hne ((h₂.kept q hne).trans (hP q hq))
        · exact hQ q hq
      · refine Or.inr ⟨hr, fun h => hbad ⟨h.1.2, (shown_append.mp h.2).2⟩⟩
    · cases he

/-- An exception ends what was to be more. -/
theorem Cleans.throws {e : Exn} (h : Cleans P C s (.error e) s' sent) (hP : ∀ q, P q → Q q)
    (hC : D → C) : Cleans Q D s (.error e) s' sent where
  handle := h.handle
  log := h.log
  outside q hq := h.outside q fun hp => hq (hP q hp)
  kept := h.kept
  ends := by
    obtain ⟨hr, -⟩ | ⟨hr, hbad⟩ := h.ends
    · cases hr
    · exact Or.inr ⟨hr, fun h => hbad ⟨hC h.1, h.2⟩⟩

theorem Cleans.size_le (h : Cleans P C s r s' sent) : s'.fs.size ≤ s.fs.size :=
  Tree.size_le fun q hq => h.kept q hq ▸ hq

end

/-- What holds after a call that is to remove the paths `P`. -/
def Cleaned (P : Path Bytes → Prop) (C : Prop) (s : Server) (r : Except Exn Unit) (_ : NFSClient)
    (s' : Server) : Prop :=
  ∃ sent, Cleans P C s r s' sent

/-! ### The loop over the entries -/

section

variable {rmdir : Fh3 → Bytes → ClientM NFSClient Unit} {d : Path Bytes} {s : Server}
  {nfs : NFSClient}

/-- What the loop does for an entry, by what was sent. -/
theorem clearEntry_view (dir : Fh3) (e : EntryPlus) :
    clearEntry rmdir dir e.view =
      if IsDot e.name then pure ()
      else if e.attrs.isSome ∧ (e.attrs.getD Fattr3.zero).type = .NF3DIR then rmdir dir e.name
      else call (.remove dir e.name) := rfl

theorem twpM_clearEntry {e : EntryPlus} (hdot : ¬ IsDot e.name) (hn : s.fs.kind (e.name :: d) ≠ none)
    (hattrs : ∀ a ∈ e.attrs, s.fs.kind (e.name :: d) = some a.type)
    (hrec : s.fs.kind (e.name :: d) = some .NF3DIR →
      twpM Server.Serves Server.Served (Cleaned (e.name :: d <:+ ·) True s)
        (rmdir ⟨s.handle d⟩ e.name) nfs s) :
    twpM Server.Serves Server.Served
      (Cleaned (e.name :: d <:+ ·) (s.fs.kind (e.name :: d) = some .NF3DIR → e.attrs.isSome) s)
      (clearEntry rmdir ⟨s.handle d⟩ e.view) nfs s := by
  rw [clearEntry_view, if_neg hdot]
  -- with attributes, the type that they give is right
  by_cases hdir : e.attrs.isSome ∧ (e.attrs.getD Fattr3.zero).type = .NF3DIR
  · rw [if_pos hdir]
    obtain ⟨hsome, htype⟩ := hdir
    obtain ⟨a, ha⟩ := Option.isSome_iff_exists.mp hsome
    rw [ha] at htype
    have hkind : s.fs.kind (e.name :: d) = some .NF3DIR :=
      (hattrs a ha).trans (congrArg some htype)
    refine twpM_mono (fun r nfs s' h => ?_) (hrec hkind)
    obtain ⟨sent, h⟩ := h
    exact ⟨sent, h.congr (fun _ => Iff.rfl) ⟨fun _ _ => hsome, fun _ => trivial⟩⟩
  · rw [if_neg hdir]
    refine Server.twpM_remove hn (fun hkind nfs s' hs => ?_) fun hkind err nfs => ?_
    · exact ⟨[], Cleans.removed hs fun h => absurd h hkind⟩
    · -- a directory without attributes
      refine ⟨[], Cleans.refused fun himp => hdir ?_⟩
      have hsome := himp hkind
      obtain ⟨a, ha⟩ := Option.isSome_iff_exists.mp hsome
      refine ⟨hsome, ?_⟩
      rw [ha]
      exact Option.some.inj ((hattrs a ha).symm.trans hkind)

/-- Another entry than `e` is not under it. -/
theorem Pending.tail {s s₁ : Server} {e : EntryPlus} {entries : List EntryPlus}
    (h : Pending s.fs d (e :: entries))
    (houtside : ∀ q, ¬ e.name :: d <:+ q → s₁.fs.kind q = s.fs.kind q) :
    Pending s₁.fs d entries ∧ (Typed s₁.fs d entries ↔ Typed s.fs d entries) := by
  obtain ⟨hnotin, hnodup⟩ := List.nodup_cons.mp h.nodup
  have hkind : ∀ e' ∈ entries, s₁.fs.kind (e'.name :: d) = s.fs.kind (e'.name :: d) := by
    intro e' he'
    refine houtside _ (Tree.not_suffix_entry (fun heq => hnotin ?_) List.suffix_rfl)
    exact heq ▸ List.mem_map_of_mem he'
  refine ⟨⟨hnodup, fun e' he' hdot => ?_, fun e' he' hdot a ha => ?_⟩, ?_⟩
  · rw [hkind e' he']
    exact h.mem e' (List.mem_cons_of_mem e he') hdot
  · rw [hkind e' he']
    exact h.attrs e' (List.mem_cons_of_mem e he') hdot a ha
  · exact forall₂_congr fun e' he' => by rw [hkind e' he']

theorem underEntries_cons {e : EntryPlus} {entries : List EntryPlus} (hdot : ¬ IsDot e.name)
    (q : Path Bytes) :
    UnderEntries d (e :: entries) q ↔ e.name :: d <:+ q ∨ UnderEntries d entries q := by
  refine (List.exists_mem_cons_iff _ e entries).trans (or_congr ?_ Iff.rfl)
  exact and_iff_right hdot

theorem typed_cons {fs : FileSystem} {e : EntryPlus} {entries : List EntryPlus} :
    Typed fs d (e :: entries) ↔
      (fs.kind (e.name :: d) = some .NF3DIR → e.attrs.isSome) ∧ Typed fs d entries :=
  List.forall_mem_cons

/-- **The loop**, by induction on the entries that are left. -/
theorem twpM_clearEntries {N : ℕ}
    (hrec : ∀ n s nfs, s.fs.size ≤ N → s.fs.kind (n :: d) = some .NF3DIR →
      twpM Server.Serves Server.Served (Cleaned (n :: d <:+ ·) True s) (rmdir ⟨s.handle d⟩ n) nfs s) :
    ∀ (entries : List EntryPlus) (s : Server) (nfs : NFSClient), s.fs.size ≤ N →
      Pending s.fs d entries →
      twpM Server.Serves Server.Served (Cleaned (UnderEntries d entries) (Typed s.fs d entries) s)
        (clearEntries rmdir ⟨s.handle d⟩ (entries.map EntryPlus.view)) nfs s
  | [], s, nfs, _, _ => by
    refine ⟨[], Cleans.refl (fun q hq => ?_) fun e he => absurd he List.not_mem_nil⟩
    obtain ⟨e, he, -⟩ := hq
    exact absurd he List.not_mem_nil
  | e :: entries, s, nfs, hN, hpending => by
    by_cases hdot : IsDot e.name
    · -- nothing is done for it
      refine twpM_bind.mpr ?_
      rw [clearEntry_view, if_pos hdot]
      change twpM _ _ _ (clearEntries rmdir _ (entries.map EntryPlus.view)) nfs s
      have hsame : ∀ q, ¬ e.name :: d <:+ q → s.fs.kind q = s.fs.kind q := fun _ _ => rfl
      obtain ⟨htail, -⟩ := hpending.tail hsame
      refine twpM_mono (fun r nfs s' h => ?_) (twpM_clearEntries hrec entries s nfs hN htail)
      obtain ⟨sent, h⟩ := h
      refine ⟨sent, h.congr (fun q => ?_) ?_⟩
      · refine Iff.symm ((List.exists_mem_cons_iff _ e entries).trans ?_)
        exact or_iff_right fun h => h.1 hdot
      · rw [typed_cons, s.kind_dot hdot]
        exact (and_iff_right fun h => absurd h.symm (Option.some_ne_none _)).symm
    · have hn := hpending.mem e List.mem_cons_self hdot
      have hattrs := hpending.attrs e List.mem_cons_self hdot
      refine twpM_bind.mpr (twpM_mono (fun r nfs s₁ h => ?_)
        (twpM_clearEntry hdot hn hattrs fun hkind => hrec e.name s nfs hN hkind))
      obtain ⟨sent₁, h₁⟩ := h
      -- a throw leaves the entries behind this one as they are
      cases r with
      | error err =>
        exact ⟨sent₁, h₁.throws (fun q hq => (underEntries_cons hdot q).mpr (Or.inl hq))
          fun h => (typed_cons.mp h).1⟩
      | ok u =>
        obtain ⟨htail, htyped⟩ := hpending.tail h₁.outside
        have hrest := twpM_clearEntries hrec entries s₁ nfs (h₁.size_le.trans hN) htail
        rw [h₁.handle] at hrest
        refine twpM_mono (fun r nfs s' h => ?_) hrest
        obtain ⟨sent₂, h₂⟩ := h
        refine ⟨sent₁ ++ sent₂, (h₁.trans h₂).congr (fun q => (underEntries_cons hdot q).symm) ?_⟩
        rw [htyped, typed_cons]

end

/-! ### The recursion -/

/-- What was sent of a listing is shown if the directories in it have attributes. -/
theorem shown_listing {fs : FileSystem} {d : Path Bytes} {entries : List EntryPlus} :
    Shown (entries.map fun e => ⟨fs.kind (e.name :: d), e⟩) ↔ Typed fs d entries :=
  List.forall_mem_map

/-- The entries of a listing are to be removed. -/
theorem Lists.pending {fs : FileSystem} {d : Path Bytes} {L : Listing EntryPlus.cookie 0}
    (h : Lists fs d L) : Pending fs d L.entries where
  nodup := h.nodup
  mem e he hdot := (h.mem e.name hdot).mp (List.mem_map_of_mem he)
  attrs := h.attrs

/-- With its entries removed, a directory is empty. -/
theorem entries_removed {s s' : Server} {d : Path Bytes} (hd : s.fs.kind d = some .NF3DIR)
    (hkept : ∀ q, s'.fs.kind q ≠ none → s'.fs.kind q = s.fs.kind q)
    (hgone : ∀ q, UnderEntries d (s.listing d).entries q → s'.fs.kind q = none) (m : Bytes) :
    s'.fs.kind (m :: d) = none := by
  by_contra hm
  have hsome : s.fs.kind (m :: d) ≠ none := hkept _ hm ▸ hm
  have hdot := (s.named m d hsome).1
  obtain ⟨e, he, rfl⟩ := List.mem_map.mp (((s.lists d hd).mem m hdot).mpr hsome)
  exact hm (hgone _ ⟨e, he, hdot, List.suffix_rfl⟩)

/-- What is under an entry is under the directory. -/
theorem UnderEntries.under {d : Path Bytes} {entries : List EntryPlus} {q : Path Bytes}
    (h : UnderEntries d entries q) : d <:+ q := by
  obtain ⟨e, -, -, hq⟩ := h
  exact (List.suffix_cons e.name d).trans hq

theorem UnderEntries.ne {d : Path Bytes} {entries : List EntryPlus} : ¬ UnderEntries d entries d := by
  rintro ⟨e, -, -, h⟩
  have hlen := h.length_le
  rw [List.length_cons] at hlen
  omega

/-- What follows a listing, together with what was sent for it. -/
theorem Cleans.after_listing {s s' : Server} {d : Path Bytes} {P : Path Bytes → Prop}
    {r : Except Exn Unit} {sent : List Sent} {entries : List EntryPlus}
    (h : Cleans P (Typed s.fs d entries) (s.sends d entries) r s' sent) :
    Cleans P True s r s' (entries.map (fun e => ⟨s.fs.kind (e.name :: d), e⟩) ++ sent) where
  handle := h.handle
  log := by
    rw [h.log, ← List.append_assoc]
    rfl
  outside := h.outside
  kept := h.kept
  ends := by
    rw [shown_append, shown_listing, and_iff_right trivial]
    exact h.ends

/-- **The recursion**, by induction on the depth that is left. A call sends the listing of its directory
first. -/
theorem twpM_rmdirRecursive {N fuel : ℕ} (hfuel : N + 2 < fuel) :
    ∀ (depth : ℕ) (p : Path Bytes) (n : Bytes) (s : Server) (nfs : NFSClient), s.fs.size ≤ N →
      s.fs.kind (n :: p) = some .NF3DIR → N ≤ p.length + depth + 1 →
      twpM Server.Serves Server.Served
        (fun r _ s' => ∃ sent, Cleans (n :: p <:+ ·) True s r s'
          ((s.listing (n :: p)).entries.map (fun e => ⟨s.fs.kind (e.name :: n :: p), e⟩) ++ sent))
        (rmdirRecursive fuel depth ⟨s.handle p⟩ n) nfs s
  | 0, p, n, s, nfs, hN, hn, hdepth => by
    -- the path of a directory is shorter than that
    have hlt := s.fs.length_lt_size (hn ▸ Option.some_ne_none _)
    rw [List.length_cons] at hlt
    omega
  | depth + 1, p, n, s, nfs, hN, hn, hdepth => by
    have hlength := Server.length_listing_le hn
    refine twpM_bind.mpr (Server.twpM_lookup (hn ▸ Option.some_ne_none _) fun nfs => ?_)
    refine twpM_bind.mpr (twpM_bind.mpr (Server.twpM_readdirplus hn (by omega) fun nfs => ?_))
    have hrec : ∀ m s' nfs, s'.fs.size ≤ N → s'.fs.kind (m :: n :: p) = some .NF3DIR →
        twpM Server.Serves Server.Served (Cleaned (m :: n :: p <:+ ·) True s')
          (rmdirRecursive fuel depth ⟨s'.handle (n :: p)⟩ m) nfs s' := by
      intro m s' nfs hN' hm
      have hdepth' : N ≤ (n :: p).length + depth + 1 := by
        rw [List.length_cons]
        omega
      refine twpM_mono (fun r nfs s'' h => ?_)
        (twpM_rmdirRecursive hfuel depth (n :: p) m s' nfs hN' hm hdepth')
      obtain ⟨sent, h⟩ := h
      exact ⟨_, h⟩
    have hloop := twpM_clearEntries hrec (s.listing (n :: p)).entries
      (s.sends (n :: p) (s.listing (n :: p)).entries) nfs hN (s.lists (n :: p) hn).pending
    refine twpM_mono (fun r nfs s₁ h => ?_) hloop
    obtain ⟨sent, h⟩ := h
    have h₁ := Cleans.after_listing (s := s) h
    cases r with
    | error err => exact ⟨sent, h₁.throws (fun q hq => hq.under) id⟩
    | ok u =>
      obtain ⟨-, -, hgone⟩ | ⟨⟨err, herr⟩, -⟩ := h₁.ends
      · have hn₁ : s₁.fs.kind (n :: p) = some .NF3DIR := (h₁.outside _ UnderEntries.ne).trans hn
        have hempty := entries_removed hn h₁.kept hgone
        rw [← h₁.handle]
        refine Server.twpM_rmdir hn₁ hempty fun nfs s₂ hs₂ => ?_
        have h₂ := h₁.trans (Cleans.removed hs₂ trivial)
        rw [List.append_nil] at h₂
        refine ⟨sent, h₂.congr (fun q => ?_) (and_iff_left trivial)⟩
        exact or_iff_right_of_imp fun hq => hq.under
      · cases herr

/-- The tree is gone, and nothing else is. -/
def Completed (q : Path Bytes) (s : Server) (r : Except Exn Unit) (s' : Server) : Prop :=
  r = .ok () ∧ (∀ p, q <:+ p → s'.fs.kind p = none) ∧ ∀ p, ¬ q <:+ p → s'.fs.kind p = s.fs.kind p

theorem Cleans.completed_iff {q : Path Bytes} {s s' : Server} {r : Except Exn Unit}
    {sent : List Sent} (h : Cleans (q <:+ ·) True s r s' sent) : Completed q s r s' ↔ Shown sent := by
  rcases h.ends with ⟨hr, ⟨-, hshown⟩, hgone⟩ | ⟨⟨e, hr⟩, hbad⟩
  · exact ⟨fun _ => hshown, fun _ => ⟨hr, hgone, h.outside⟩⟩
  · refine ⟨fun hdone => ?_, fun hshown => absurd ⟨trivial, hshown⟩ hbad⟩
    have hok := hdone.1
    rw [hr] at hok
    cases hok

/-- **The cleanup is complete** exactly if no reply has left out the attributes of a directory. It ends,
and removes nothing outside of the tree, in any case. -/
theorem cleanup_complete_iff (s : Server) (parent : Path Bytes) (name : Bytes)
    (hdir : s.fs.kind (name :: parent) = some .NF3DIR) (hsent : s.sent = []) (fuel depth : ℕ)
    (hfuel : s.fs.size + 2 < fuel) (hdepth : s.fs.size ≤ depth) (nfs : NFSClient) :
    twpM Server.Serves Server.Served
      (fun r _ s' => (∀ p, ¬ name :: parent <:+ p → s'.fs.kind p = s.fs.kind p) ∧
        (Completed (name :: parent) s r s' ↔ Shown s'.sent))
      (rmdirRecursive fuel depth ⟨s.handle parent⟩ name) nfs s := by
  refine twpM_mono (fun r nfs s' h => ?_)
    (twpM_rmdirRecursive hfuel depth parent name s nfs le_rfl hdir (by omega))
  obtain ⟨sent, h⟩ := h
  have hlog := h.log
  rw [hsent, List.nil_append] at hlog
  exact ⟨h.outside, hlog ▸ h.completed_iff⟩

/-! ### Two directories -/

/-- The exported root, a directory in it, and one in that. -/
def chain : List (Path Bytes) := [[], [ascii "d"], [ascii "e", ascii "d"]]

theorem entry_mem_chain {n : Bytes} {p : Path Bytes} (h : n :: p ∈ chain) :
    (n = ascii "d" ∧ p = []) ∨ (n = ascii "e" ∧ p = [ascii "d"]) := by
  rcases List.mem_cons.mp h with h | h
  · cases h
  rcases List.mem_cons.mp h with h | h
  · exact Or.inl (List.cons.inj h)
  · exact Or.inr (List.cons.inj (List.mem_singleton.mp h))

def chainFs : FileSystem where
  kind p := if p ∈ chain then some .NF3DIR else none
  finite := chain.finite_toSet.subset fun p hp => by
    by_contra hnot
    exact hp (if_neg hnot)
  closed n p hp := by
    have hmem : n :: p ∈ chain := by
      by_contra hnot
      exact hp (if_neg hnot)
    rcases entry_mem_chain hmem with ⟨-, rfl⟩ | ⟨-, rfl⟩ <;> rfl

theorem mem_chain {p : Path Bytes} (h : chainFs.kind p ≠ none) : p ∈ chain := by
  by_contra hnot
  exact h (if_neg hnot)

/-- An entry without attributes. -/
def bare (name : Bytes) : EntryPlus := (1, name, 1, none, none)

/-- Each of the two directories is the only entry of its directory. -/
def chainListing (p : Path Bytes) : Listing EntryPlus.cookie 0 :=
  if p = [] then ⟨[bare (ascii "d")], by decide⟩
  else if p = [ascii "d"] then ⟨[bare (ascii "e")], by decide⟩
  else ⟨[], by decide⟩

/-- A listing with one bare entry. -/
theorem lists_bare {p : Path Bytes} {n : Bytes} {hnodup : (0 :: [bare n].map EntryPlus.cookie).Nodup}
    (hn : n.length < 2 ^ 32) (hmem : ∀ m, chainFs.kind (m :: p) ≠ none ↔ m = n) :
    Lists chainFs p ⟨[bare n], hnodup⟩ where
  nodup := List.nodup_singleton n
  mem m _ := List.mem_singleton.trans (hmem m).symm
  attrs e he _ a ha := by
    rw [List.mem_singleton.mp he] at ha
    cases ha
  fits e he := by
    rw [List.mem_singleton.mp he]
    refine ⟨trivial, hn, trivial, fits_postOpAttr none, fun fh hfh => ?_⟩
    cases hfh

theorem lists_chain (p : Path Bytes) (hp : chainFs.kind p = some .NF3DIR) :
    Lists chainFs p (chainListing p) := by
  -- the root, the directory in it, and the one that has nothing in it
  rcases List.mem_cons.mp (mem_chain (hp ▸ Option.some_ne_none _)) with rfl | hp'
  · refine lists_bare (by decide) fun m => ⟨fun hm => ?_, fun hm => hm ▸ by decide⟩
    rcases entry_mem_chain (mem_chain hm) with ⟨hm, -⟩ | ⟨-, hm⟩
    · exact hm
    · cases hm
  rcases List.mem_cons.mp hp' with rfl | hp'
  · refine lists_bare (by decide) fun m => ⟨fun hm => ?_, fun hm => hm ▸ by decide⟩
    rcases entry_mem_chain (mem_chain hm) with ⟨-, hm⟩ | ⟨hm, -⟩
    · cases hm
    · exact hm
  · obtain rfl := List.mem_singleton.mp hp'
    refine ⟨List.nodup_nil, fun n _ => ⟨fun hn => absurd hn List.not_mem_nil, fun hn => ?_⟩,
      fun e he => absurd he List.not_mem_nil, fun e he => absurd he List.not_mem_nil⟩
    rcases entry_mem_chain (mem_chain hn) with ⟨-, hn⟩ | ⟨-, hn⟩
    · cases hn
    · exact absurd hn (by decide)

/-- A server that sends no attributes. A handle is the depth of the directory. -/
def chainServer : Server where
  fs := chainFs
  handle p := [UInt8.ofNat p.length]
  listing := chainListing
  sent := []
  named n p h := by
    rcases entry_mem_chain (mem_chain h) with ⟨rfl, -⟩ | ⟨rfl, -⟩ <;> decide
  handle_inj p q hp hq h := by
    revert h
    have hall : ∀ p ∈ chain, ∀ q ∈ chain,
        ([UInt8.ofNat p.length] : Bytes) = [UInt8.ofNat q.length] → p = q := by decide
    exact hall p (mem_chain hp) q (mem_chain hq)
  handle_fits p _ := Nat.one_lt_two_pow (Nat.succ_ne_zero 31)
  lists := lists_chain

theorem size_chainServer : chainServer.fs.size ≤ 3 := by
  have hsub : chainServer.fs.finite.toFinset ⊆ chain.toFinset := fun p hp =>
    List.mem_toFinset.mpr (mem_chain ((Tree.mem_paths _).mp hp))
  exact (Finset.card_le_card hsub).trans (List.toFinset_card_le chain)

theorem chain_complete_iff :
    twpM Server.Serves Server.Served
      (fun r _ s' => (∀ p, ¬ [ascii "d"] <:+ p → s'.fs.kind p = chainServer.fs.kind p) ∧
        (Completed [ascii "d"] chainServer r s' ↔ Shown s'.sent))
      (rmdirRecursive 6 3 ⟨chainServer.handle []⟩ (ascii "d")) ⟨.connect 2049⟩ chainServer :=
  cleanup_complete_iff chainServer [] (ascii "d") (by decide) rfl 6 3
    (Nat.lt_of_le_of_lt (Nat.add_le_add_right size_chainServer 2) (by decide)) size_chainServer _

/-- The inner directory comes without attributes, and the REMOVE of it is refused. -/
theorem bare_directory_left :
    ¬ ∀ (s : Server) (parent : Path Bytes) (name : Bytes),
      s.fs.kind (name :: parent) = some .NF3DIR → s.sent = [] → ∀ fuel depth : ℕ,
        s.fs.size + 2 < fuel → s.fs.size ≤ depth → ∀ nfs : NFSClient,
          twpM Server.Serves Server.Served (fun r _ s' => Completed (name :: parent) s r s')
            (rmdirRecursive fuel depth ⟨s.handle parent⟩ name) nfs s := by
  intro hclaim
  have hfuel : chainServer.fs.size + 2 < 6 :=
    Nat.lt_of_le_of_lt (Nat.add_le_add_right size_chainServer 2) (by decide)
  have h := hclaim chainServer [] (ascii "d") (by decide) rfl 6 3 hfuel size_chainServer
    ⟨.connect 2049⟩
  have hrec := twpM_rmdirRecursive hfuel 3 [] (ascii "d") chainServer ⟨.connect 2049⟩ le_rfl
    (by decide) (size_chainServer.trans (by decide))
  -- any run will do, since all begin with the listing
  obtain ⟨tr, ⟨r, nfs⟩, s', htr⟩ := twp_exists (fun _ _ h => h) h
  obtain ⟨sent, hcleans⟩ : ∃ sent, Cleans ([ascii "d"] <:+ ·) True chainServer r s'
      ([(⟨some .NF3DIR, bare (ascii "e")⟩ : Sent)] ++ sent) := twp_trace htr hrec
  have hshown := hcleans.completed_iff.mp (twp_trace htr h)
  have hbare := hshown ⟨some .NF3DIR, bare (ascii "e")⟩ List.mem_cons_self rfl
  cases hbare

end Bench

end NfsClient
