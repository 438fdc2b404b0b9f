import NfsClient.Bench.Threads
import NfsClient.Lib.Interference
import NfsClient.Nfs3.Transparency
import NfsClient.Rpc.Concurrent

/-!
# Threads that share a directory

A file server has a directory in which each thread has names of its own (`own`). A thread creates and
removes files under these names only; it may look up other names, which nobody removes, and read and
write what it has the handle of (`May`). So no thread can take from another what that may do, which makes
this a discipline of the clients (`ownNames`).

To a thread the directory is as if it had it to itself: `Sees` says what it knows of it, and the rules
`holdsM_lookup` to `holdsM_remove` say what becomes of that with each of its calls.
-/

namespace NfsClient

open Xdr Interaction Nfs3

namespace Bench

/-! ### The server -/

/-- The names in the directory, each with its handle. -/
abbrev Files : Type := Bytes → Option Fh3

section

variable {σ : Type} (fs : FileServer σ)

/-- What a call of the superuser comes to, and the state that it leaves. -/
def asRoot (c : Call) (s : σ) : Except Exn c.Result × σ :=
  ((served fs c (some rootAuth, s)).1, (served fs c (some rootAuth, s)).2.2)

variable {fs} in
theorem asRoot_eq {c : Call} {s s' : σ} {r : c.proc.Res}
    (h : fs (some rootAuth) c.proc c.args s = (r, s')) : asRoot fs c s = (c.reported r, s') := by
  unfold asRoot served
  rw [h]

/-- A file server with a directory of files. Nothing is said of calls that it may refuse: a LOOKUP or a
REMOVE of what is not there, a guarded CREATE of what is, and I/O on a file that has been removed. -/
structure Exports (workdir : Fh3) (files : σ → Files) : Prop where
  handle_short : ∀ {s n fh}, files s n = some fh → fh.data.length ≤ 64
  lookup : ∀ {s n fh}, files s n = some fh → (asRoot fs (.lookup workdir n) s).1 = .ok fh ∧
    files (asRoot fs (.lookup workdir n) s).2 = files s
  create : ∀ {s n} mode hmode, (mode = .GUARDED → files s n = none) →
    ∃ fh, (asRoot fs (.create workdir n mode hmode {}) s).1 = .ok fh ∧
      files (asRoot fs (.create workdir n mode hmode {}) s).2 = Function.update (files s) n (some fh)
  setSize : ∀ {s n fh} size, files s n = some fh →
    (asRoot fs (.setattr fh { set_size := true, size } {}) s).1 = .ok () ∧
      files (asRoot fs (.setattr fh { set_size := true, size } {}) s).2 = files s
  read : ∀ {s n fh} offset count, files s n = some fh →
    (∃ data, (asRoot fs (.read fh offset count) s).1 = .ok data) ∧
      files (asRoot fs (.read fh offset count) s).2 = files s
  write : ∀ {s n fh} offset stable data, files s n = some fh →
    (∃ result, (asRoot fs (.write fh offset stable data) s).1 = .ok result) ∧
      files (asRoot fs (.write fh offset stable data) s).2 = files s
  remove : ∀ {s n}, files s n ≠ none → (asRoot fs (.remove workdir n) s).1 = .ok () ∧
    files (asRoot fs (.remove workdir n) s).2 = Function.update (files s) n none

end

/-! ### What a thread may do -/

variable {ι : Type} {own : ι → Bytes → Prop} {workdir : Fh3} {i : ι} {v v' : Files} {c : Call}

/-- The name belongs to no other thread. -/
def Untouched (own : ι → Bytes → Prop) (i : ι) (n : Bytes) : Prop := ∀ j, j ≠ i → ¬ own j n

/-- The calls of thread `i`, with `v` in the directory. -/
inductive May (workdir : Fh3) (own : ι → Bytes → Prop) (i : ι) (v : Files) : Call → Prop
  | lookup {n : Bytes} (hn : Untouched own i n) (h : v n ≠ none) : May workdir own i v (.lookup workdir n)
  | create {n : Bytes} {mode : CreateMode3} {hmode : mode ≠ .EXCLUSIVE} (hn : own i n)
      (h : mode = .GUARDED → v n = none) : May workdir own i v (.create workdir n mode hmode {})
  | setSize {n : Bytes} {fh : Fh3} (size : UInt64) (hn : Untouched own i n) (h : v n = some fh) :
      May workdir own i v (.setattr fh { set_size := true, size } {})
  | read {n : Bytes} {fh : Fh3} (offset : UInt64) (count : UInt32) (hn : Untouched own i n)
      (h : v n = some fh) : May workdir own i v (.read fh offset count)
  | write {n : Bytes} {fh : Fh3} (offset : UInt64) (stable : Stable3) (data : Bytes)
      (hn : Untouched own i n) (h : v n = some fh) : May workdir own i v (.write fh offset stable data)
  | remove {n : Bytes} (hn : own i n) (h : v n ≠ none) : May workdir own i v (.remove workdir n)

/-- Only the names that nobody else touches matter. -/
theorem May.congr (h : May workdir own i v c) (hown : ∀ n, own i n → Untouched own i n)
    (hv : ∀ n, Untouched own i n → v' n = v n) : May workdir own i v' c := by
  cases h with
  | lookup hn h => exact .lookup hn (by rwa [hv _ hn])
  | create hn h => exact .create hn fun hmode => by rw [hv _ (hown _ hn), h hmode]
  | setSize size hn h => exact .setSize size hn ((hv _ hn).trans h)
  | read offset count hn h => exact .read offset count hn ((hv _ hn).trans h)
  | write offset stable data hn h => exact .write offset stable data hn ((hv _ hn).trans h)
  | remove hn h => exact .remove hn (by rwa [hv _ (hown _ hn)])

/-- Only names of the thread's own are created and removed. -/
theorem May.outside {σ : Type} {fs : FileServer σ} {files : σ → Files} (hexp : Exports fs workdir files)
    {s : σ} (h : May workdir own i (files s) c) {n : Bytes} (hn : ¬ own i n) :
    files (asRoot fs c s).2 n = files s n := by
  cases h with
  | lookup _ h =>
    obtain ⟨fh, hfh⟩ := Option.ne_none_iff_exists'.mp h
    rw [(hexp.lookup hfh).2]
  | @create m mode hmode hm h =>
    obtain ⟨fh, -, hfiles⟩ := hexp.create mode hmode h
    have hne : n ≠ m := by
      rintro rfl
      exact hn hm
    rw [hfiles, Function.update_of_ne hne]
  | setSize size _ h => rw [(hexp.setSize size h).2]
  | read offset count _ h => rw [(hexp.read offset count h).2]
  | write offset stable data _ h => rw [(hexp.write offset stable data h).2]
  | @remove m hm h =>
    have hne : n ≠ m := by
      rintro rfl
      exact hn hm
    rw [(hexp.remove h).2, Function.update_of_ne hne]

/-! ### The discipline -/

section

variable {τ σ : Type} {srv : Service τ} {fs : FileServer σ} {abs : τ → σ} {files : σ → Files}

/-- A request of thread `i`: a call that it may make, and that fits a record. -/
def Permitted (workdir : Fh3) (own : ι → Bytes → Prop) (i : ι) (v : Files) (q : RpcRequest) : Prop :=
  ∃ (c : Call) (rpc : TcpRpcClient), q = c.request rpc ∧ rpc.auth_sys_ = some rootAuth ∧
    c.HasRoom (some rootAuth) ∧ May workdir own i v c

/-- Each thread creates and removes names of its own. -/
def ownNames (h : OnTheWire srv fs abs) (hexp : Exports fs workdir files)
    (hown : ∀ i n, own i n → Untouched own i n) : Discipline ι (AnsweredAtOnce srv) where
  ok i t q := Permitted workdir own i (files (abs t)) q
  guar i t t' := ∀ n, ¬ own i n → files (abs t') n = files (abs t) n
  served _ := ⟨_, _, rfl, rfl⟩
  guar_of_ok := by
    rintro i t q r t' ⟨c, rpc, rfl, hauth, hroom, hmay⟩ ⟨-, rfl⟩ n hn
    rw [(call_answered h c rpc t (hauth ▸ hroom)).2, hauth]
    exact hmay.outside hexp hn
  ok_stable := by
    rintro i j t t' q hj hguar ⟨c, rpc, rfl, hauth, hroom, hmay⟩
    exact ⟨c, rpc, rfl, hauth, hroom, hmay.congr (hown i) fun n hn => hguar n (hn j hj)⟩

/-! ### One thread by itself -/

/-- What thread `i` knows: the directory holds `v`, as far as nobody else touches it. -/
structure Sees (own : ι → Bytes → Prop) (i : ι) (files : Files) (v : Files) (nfs : NFSClient) : Prop where
  auth : nfs.nfs_conn_.auth_sys_ = some rootAuth
  agrees : ∀ n, Untouched own i n → files n = v n

/-- The calls of a client leave it with the credential. -/
theorem Sees.after {nfs nfs' : NFSClient} {f f' : Files} (hsees : Sees own i f v nfs)
    (hauth : nfs'.nfs_conn_.auth_sys_ = nfs.nfs_conn_.auth_sys_)
    (hagrees : ∀ n, Untouched own i n → f' n = v' n) : Sees own i f' v' nfs' :=
  ⟨hauth.trans hsees.auth, hagrees⟩

/-- What another thread does to its own names is out of sight. -/
theorem Sees.other {j : ι} {nfs : NFSClient} {f f' : Files} (hsees : Sees own i f v nfs) (hj : j ≠ i)
    (hguar : ∀ n, ¬ own j n → f' n = f n) : Sees own i f' v nfs :=
  hsees.after rfl fun n hn => (hguar n (hn j hj)).trans (hsees.agrees n hn)

/-- `Discipline.Holds` of a method. -/
abbrev HoldsM {C α : Type} (D : Discipline ι (AnsweredAtOnce srv)) (i : ι)
    (post : Except Exn α → C → τ → Prop) (m : ClientM C α) (c : C) (t : τ) : Prop :=
  twpM (interfered (Others D.guar i) (AnsweredAtOnce srv)) (D.ok i) post m c t

variable {h : OnTheWire srv fs abs} {hexp : Exports fs workdir files}
  {hown : ∀ i n, own i n → Untouched own i n} {nfs : NFSClient} {t : τ} {n : Bytes} {fh : Fh3}

/-- A call is made in a state that others may have moved on to. -/
theorem holdsM_call {post : Except Exn c.Result → NFSClient → τ → Prop}
    (hsees : Sees own i (files (abs t)) v nfs) (hroom : c.HasRoom (some rootAuth))
    (hmay : May workdir own i v c)
    (hpost : ∀ s t', Sees own i (files s) v nfs → files (abs t') = files (asRoot fs c s).2 →
      post (asRoot fs c s).1 ⟨nfs.nfs_conn_.bump⟩ t') :
    HoldsM (ownNames h hexp hown) i post (call c) nfs t := by
  have hok : Permitted workdir own i (files (abs t)) (c.request nfs.nfs_conn_) :=
    ⟨c, nfs.nfs_conn_, rfl, hsees.auth, hroom, hmay.congr (hown i) hsees.agrees⟩
  refine twpM_client_call.mpr ⟨hok, ?_⟩
  rintro _ _ ⟨t₀, hothers, rfl, rfl⟩
  have hsees₀ : Sees own i (files (abs t₀)) v nfs :=
    hothers.induct (P := fun t => Sees own i (files (abs t)) v nfs)
      (fun _ _ _ hj hguar hsees => hsees.other hj hguar) hsees
  obtain ⟨hresult, habs⟩ := call_answered h c nfs.nfs_conn_ t₀ (hsees.auth ▸ hroom)
  rw [hsees.auth] at hresult habs
  rw [hresult]
  exact hpost (abs t₀) _ hsees₀ (congrArg files habs)

/-- A call that changes nothing in the directory, and is not refused. -/
theorem holdsM_keep {post : Except Exn c.Result → NFSClient → τ → Prop} {P : c.Result → Prop}
    (hsees : Sees own i (files (abs t)) v nfs) (hroom : c.HasRoom (some rootAuth))
    (hmay : May workdir own i v c)
    (hkeep : ∀ s, (∀ n, Untouched own i n → files s n = v n) →
      (∃ r, P r ∧ (asRoot fs c s).1 = .ok r) ∧ files (asRoot fs c s).2 = files s)
    (hpost : ∀ r nfs' t', P r → Sees own i (files (abs t')) v nfs' → post (.ok r) nfs' t') :
    HoldsM (ownNames h hexp hown) i post (call c) nfs t := by
  refine holdsM_call hsees hroom hmay fun s t' hs hfiles => ?_
  obtain ⟨⟨r, hP, hr⟩, hsame⟩ := hkeep s hs.agrees
  rw [hr]
  refine hpost r _ t' hP (hs.after rfl fun n hn => ?_)
  rw [hfiles, hsame]
  exact hs.agrees n hn

theorem holdsM_lookup {post : Except Exn Fh3 → NFSClient → τ → Prop}
    (hsees : Sees own i (files (abs t)) v nfs) (hroom : (Call.lookup workdir n).HasRoom (some rootAuth))
    (hn : Untouched own i n) (hfh : v n = some fh)
    (hpost : ∀ nfs' t', Sees own i (files (abs t')) v nfs' → post (.ok fh) nfs' t') :
    HoldsM (ownNames h hexp hown) i post (call (.lookup workdir n)) nfs t := by
  refine holdsM_keep (c := .lookup workdir n) (P := (· = fh)) hsees hroom
    (.lookup hn (hfh ▸ Option.some_ne_none fh)) (fun s hs => ?_) ?_
  · obtain ⟨hr, hsame⟩ := hexp.lookup ((hs n hn).trans hfh)
    exact ⟨⟨fh, rfl, hr⟩, hsame⟩
  · rintro _ nfs' t' rfl hsees'
    exact hpost nfs' t' hsees'

theorem holdsM_setSize {post : Except Exn Unit → NFSClient → τ → Prop} {size : UInt64}
    (hsees : Sees own i (files (abs t)) v nfs)
    (hroom : (Call.setattr fh { set_size := true, size } {}).HasRoom (some rootAuth))
    (hn : Untouched own i n) (hfh : v n = some fh)
    (hpost : ∀ nfs' t', Sees own i (files (abs t')) v nfs' → post (.ok ()) nfs' t') :
    HoldsM (ownNames h hexp hown) i post (call (.setattr fh { set_size := true, size } {})) nfs t := by
  refine holdsM_keep (c := .setattr fh { set_size := true, size } {}) (P := fun _ => True) hsees hroom
    (.setSize size hn hfh) (fun s hs => ?_) fun _ nfs' t' _ hsees' => hpost nfs' t' hsees'
  obtain ⟨hr, hsame⟩ := hexp.setSize size ((hs n hn).trans hfh)
  exact ⟨⟨(), trivial, hr⟩, hsame⟩

theorem holdsM_read {post : Except Exn Bytes → NFSClient → τ → Prop} {offset : UInt64} {count : UInt32}
    (hsees : Sees own i (files (abs t)) v nfs)
    (hroom : (Call.read fh offset count).HasRoom (some rootAuth))
    (hn : Untouched own i n) (hfh : v n = some fh)
    (hpost : ∀ data nfs' t', Sees own i (files (abs t')) v nfs' → post (.ok data) nfs' t') :
    HoldsM (ownNames h hexp hown) i post (call (.read fh offset count)) nfs t := by
  refine holdsM_keep (c := .read fh offset count) (P := fun _ => True) hsees hroom
    (.read offset count hn hfh) (fun s hs => ?_) fun data nfs' t' _ hsees' => hpost data nfs' t' hsees'
  obtain ⟨⟨data, hr⟩, hsame⟩ := hexp.read offset count ((hs n hn).trans hfh)
  exact ⟨⟨data, trivial, hr⟩, hsame⟩

theorem holdsM_write {post : Except Exn WriteResult → NFSClient → τ → Prop} {offset : UInt64}
    {stable : Stable3} {data : Bytes} (hsees : Sees own i (files (abs t)) v nfs)
    (hroom : (Call.write fh offset stable data).HasRoom (some rootAuth))
    (hn : Untouched own i n) (hfh : v n = some fh)
    (hpost : ∀ result nfs' t', Sees own i (files (abs t')) v nfs' → post (.ok result) nfs' t') :
    HoldsM (ownNames h hexp hown) i post (call (.write fh offset stable data)) nfs t := by
  refine holdsM_keep (c := .write fh offset stable data) (P := fun _ => True) hsees hroom
    (.write offset stable data hn hfh) (fun s hs => ?_)
    fun result nfs' t' _ hsees' => hpost result nfs' t' hsees'
  obtain ⟨⟨result, hr⟩, hsame⟩ :=
    hexp.write offset stable data ((hs n hn).trans hfh)
  exact ⟨⟨result, trivial, hr⟩, hsame⟩

/-- The new file is there for the thread, with a handle that the server gives it. -/
theorem holdsM_create {post : Except Exn Fh3 → NFSClient → τ → Prop} (mode : CreateMode3)
    (hmode : mode ≠ .EXCLUSIVE) (hsees : Sees own i (files (abs t)) v nfs)
    (hroom : (Call.create workdir n mode hmode {}).HasRoom (some rootAuth)) (hn : own i n)
    (hnew : mode = .GUARDED → v n = none)
    (hpost : ∀ fh nfs' t', fh.data.length ≤ 64 →
      Sees own i (files (abs t')) (Function.update v n (some fh)) nfs' → post (.ok fh) nfs' t') :
    HoldsM (ownNames h hexp hown) i post (call (.create workdir n mode hmode {})) nfs t := by
  refine holdsM_call (c := .create workdir n mode hmode {}) hsees hroom (.create hn hnew)
    fun s t' hs hfiles => ?_
  obtain ⟨fh, hr, hcreated⟩ :=
    hexp.create mode hmode fun hguarded => (hs.agrees n (hown i n hn)).trans (hnew hguarded)
  rw [hr]
  rw [hcreated] at hfiles
  refine hpost fh _ t' (hexp.handle_short (s := abs t') (n := n) ?_) (hs.after rfl fun m hm => ?_)
  · rw [hfiles, Function.update_self]
  · rw [hfiles]
    by_cases hmn : m = n
    · rw [hmn, Function.update_self, Function.update_self]
    · rw [Function.update_of_ne hmn, Function.update_of_ne hmn]
      exact hs.agrees m hm

theorem holdsM_remove {post : Except Exn Unit → NFSClient → τ → Prop}
    (hsees : Sees own i (files (abs t)) v nfs) (hroom : (Call.remove workdir n).HasRoom (some rootAuth))
    (hn : own i n) (hthere : v n ≠ none)
    (hpost : ∀ nfs' t', Sees own i (files (abs t')) (Function.update v n none) nfs' →
      post (.ok ()) nfs' t') :
    HoldsM (ownNames h hexp hown) i post (call (.remove workdir n)) nfs t := by
  refine holdsM_call (c := .remove workdir n) hsees hroom (.remove hn hthere) fun s t' hs hfiles => ?_
  obtain ⟨hr, hremoved⟩ := hexp.remove (s := s) (n := n) (by rwa [hs.agrees n (hown i n hn)])
  rw [hr]
  rw [hremoved] at hfiles
  refine hpost _ t' (hs.after rfl fun m hm => ?_)
  rw [hfiles]
  by_cases hmn : m = n
  · rw [hmn, Function.update_self, Function.update_self]
  · rw [Function.update_of_ne hmn, Function.update_of_ne hmn]
    exact hs.agrees m hm

end

end Bench

end NfsClient
