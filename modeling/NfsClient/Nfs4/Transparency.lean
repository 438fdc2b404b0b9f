import NfsClient.Framing.Messages
import NfsClient.Lib.RemotePaging
import NfsClient.Nfs4.OnTheWire

/-!
# The NFSv4 clients are transparent

Behind a connection there is a server that reads COMPOUNDs, runs them on the machine over an
`ObjectStore` and answers with the results (`OnTheWire40`), or that does so for the COMPOUNDs that come
in turn through the slot of a session (`OnTheWire41`). A caller of `Nfs4Client` or of `Nfs41Client` has
exactly the dialogue that it would have with the store at hand, and leaves it in the same state
(`nfs4_client_is_transparent`, `nfs41_client_is_transparent`). At hand a method is what it means
(`FileMethod.meaning`), an open is what an open-owner does with its counter, and a listing takes the
pages one after the other.

The session does not show. At hand the two facades differ in the name of the open-owner and in what
becomes of an open that is to be confirmed, and in nothing else.
-/

namespace NfsClient

open Xdr Reader Interaction Effects Paging

/-! ### Stores at hand -/

/-- A store at hand, with the credential in force and the counter of the open-owner. -/
structure AtHand (σ : Type) where
  auth : Option AuthSys
  open_seqid : UInt32
  state : σ

namespace AtHand

variable {σ α : Type}

def serve (a : AtHand σ) (x : Serve σ α) : Except Exn α × AtHand σ :=
  (reported4 (x.on a.state).1, { a with state := (x.on a.state).2 })

/-- The next request of the open-owner. -/
def next (a : AtHand σ) : AtHand σ := { a with open_seqid := a.open_seqid + 1 }

def page (stores : Stores σ) (dir : Nfs4Fh) (cookie : UInt64) (cookieverf : Octets 8) (a : AtHand σ) :
    Except Exn (Page (Octets 8) Nfs4DirEntry) × AtHand σ :=
  let r := a.serve ((stores a.auth).page dir cookie cookieverf)
  (r.1.map fun page => ⟨page.entries, page.cookieverf, page.eof⟩, r.2)

/-- All pages of a directory, at most `fuel`, and whether the last of them ends the listing. -/
def pages (stores : Stores σ) (fuel : ℕ) (dir : Nfs4Fh) (a : AtHand σ) :
    Except Exn (List Nfs4DirEntry × Bool) × AtHand σ :=
  pagesAtHand (page stores dir) Nfs4DirEntry.cookie fuel 0 (Octets.zero 8) a

def readdir (stores : Stores σ) (fuel : ℕ) (dir : Nfs4Fh) (a : AtHand σ) :
    Except Exn (List Nfs4DirEntry) × AtHand σ :=
  let r := a.pages stores fuel dir
  (r.1.map Prod.fst, r.2)

/-- The listing comes to an end within `fuel` pages, or fails. -/
def Ends (stores : Stores σ) (fuel : ℕ) (dir : Nfs4Fh) (a : AtHand σ) : Prop :=
  ∀ r, (a.pages stores fuel dir).1 = .ok r → r.2 = true

/-- The grace period is over before the tries are. -/
def Opens (stores : Stores σ) (tries : ℕ) (dir : Nfs4Fh) (args : OpenArgs) (a : AtHand σ) : Prop :=
  ((retried ((stores a.auth).opening dir args) tries).on a.state).1 ≠ .error graceStatus

end AtHand

/-- A CALL with these operations fits the length of a record mark, under the credential `auth`. -/
def Room (auth : Option AuthSys) (opsSize : ℕ) : Prop :=
  headerSize auth + compoundSize [] opsSize < 2 ^ 31

instance (auth : Option AuthSys) (opsSize : ℕ) : Decidable (Room auth opsSize) :=
  inferInstanceAs (Decidable (_ < _))

/-- The size of operations. -/
def totalSize (ops : List ArgOp) : ℕ := (ops.map ArgOp.size).sum

/-- The operations of an open. -/
def openOps (dir : Nfs4Fh) (args : OpenArgs) : List ArgOp := [fhOp dir, ⟨.OPEN, args⟩, ⟨.GETFH, ()⟩]

/-- The size of an OPEN_CONFIRM on the longest handle. -/
def confirmSize : ℕ := 160

theorem Room.mono {auth : Option AuthSys} {n m : ℕ} (h : Room auth n) (hle : m ≤ n) : Room auth m :=
  lt_of_le_of_lt (Nat.add_le_add_left (Nat.add_le_add_left
    (Nat.add_le_add_left (Nat.add_le_add_left hle 4) 4) _) _) h

/-- A handle that a server has returned is not longer. -/
theorem totalSize_confirm_le {fh : Nfs4Fh} (h : fh.data.length ≤ 128) (stateid : Stateid4)
    (confirm_seqid : UInt32) :
    totalSize [fhOp fh, ⟨.OPEN_CONFIRM, (stateid, confirm_seqid)⟩] ≤ confirmSize := by
  have hsize : (fhOp fh).size ≤ 136 := by
    unfold fhOp
    split
    · decide
    · change 4 + opaqueSize fh.data.length ≤ _
      unfold opaqueSize padLen
      omega
  exact Nat.add_le_add_right hsize 24

section

variable {σ : Type}

theorem ObjectStore.length_of_opening {store : ObjectStore σ} {dir : Nfs4Fh} {args : OpenArgs}
    {s s' : σ} {open_res : Open4Result} {fh : Nfs4Fh}
    (h : (store.opening dir args).on s = (.ok (open_res, fh), s')) : fh.data.length ≤ 128 := by
  obtain ⟨_, _, -, h⟩ := Eff.bind_ok.mp h
  obtain ⟨r, _, -, h⟩ := Eff.bind_ok.mp h
  cases h
  exact r.2.2

/-! ### Minor version 0 -/

namespace Nfs4Client

/-- What follows the OPEN at hand. A file that is to be confirmed is, in the next request of the
open-owner. -/
def concludeAtHand (stores : Stores σ) :
    Except Exn (Open4Result × Nfs4Fh) × AtHand σ → Except Exn Nfs4File × AtHand σ
  | (.error e, a) => (.error e, a)
  | (.ok (open_res, fh), a) =>
    if open_res.rflags &&& OPEN4_RESULT_CONFIRM ≠ 0 then
      let a := a.next
      let r := a.serve ((stores a.auth).confirming fh open_res.stateid a.open_seqid)
      (r.1.map fun stateid => ⟨fh, stateid, a.open_seqid⟩, r.2)
    else (.ok ⟨fh, open_res.stateid, a.open_seqid⟩, a)

/-- An open at hand. -/
def openAtHand (stores : Stores σ) (tries : ℕ) (clientid : UInt64) (dir : Nfs4Fh) (name : Bytes)
    (share_access : UInt32) (create : Bool) (a : AtHand σ) : Except Exn Nfs4File × AtHand σ :=
  let a := a.next
  let args := openArgs owner name share_access create clientid a.open_seqid
  concludeAtHand stores (a.serve (retried ((stores a.auth).opening dir args) tries))

/-- The stores at hand. -/
def atHand (stores : Stores σ) (fuel : ℕ) (clientid : UInt64) :
    Object Method (fun m => Except Exn m.Result) (AtHand σ)
  | .file m, a => a.serve (m.meaning (stores a.auth))
  | .openRead dir name, a => openAtHand stores fuel clientid dir name OPEN4_SHARE_ACCESS_READ false a
  | .openWrite dir name create, a =>
    openAtHand stores fuel clientid dir name OPEN4_SHARE_ACCESS_WRITE create a
  | .readdir dir, a => a.readdir stores (fuel + 1) dir
  | .renew, a => a.serve ((stores a.auth).renewing clientid)
  | .setAuthSys auth, a => (.ok (), { a with auth := some auth })
  | .clearAuth, a => (.ok (), { a with auth := none })

/-- What an open needs: room, and an end of the grace period. -/
def OpenNeeds (stores : Stores σ) (tries : ℕ) (clientid : UInt64) (dir : Nfs4Fh) (name : Bytes)
    (share_access : UInt32) (create : Bool) (a : AtHand σ) : Prop :=
  let args := openArgs owner name share_access create clientid a.next.open_seqid
  Room a.auth (totalSize (openOps dir args)) ∧ Room a.auth confirmSize ∧
    a.next.Opens stores tries dir args

/-- What a method needs. -/
def Method.Needs (stores : Stores σ) (fuel : ℕ) (clientid : UInt64) : Method → AtHand σ → Prop
  | .file m, a => Room a.auth m.opsSize
  | .openRead dir name, a =>
    OpenNeeds stores fuel clientid dir name OPEN4_SHARE_ACCESS_READ false a
  | .openWrite dir name create, a =>
    OpenNeeds stores fuel clientid dir name OPEN4_SHARE_ACCESS_WRITE create a
  | .readdir dir, a =>
    Room a.auth (totalSize (readdirOps dir 0 (Octets.zero 8))) ∧ a.Ends stores (fuel + 1) dir
  | .renew, a => Room a.auth (totalSize [⟨.RENEW, clientid⟩])
  | .setAuthSys _, _ | .clearAuth, _ => True

end Nfs4Client

namespace Nfs4Client

variable {τ α : Type} {srv : Service τ} {stores : Stores σ} {abs : τ → σ}

/-- The client at hand: what it keeps is what the stores are served with. -/
structure Linked (abs : τ → σ) (clientid : UInt64) (a : AtHand σ) (c : Nfs4Client) (t : τ) : Prop where
  auth : c.rpc_.auth_sys_ = a.auth
  open_seqid : c.open_seqid_ = a.open_seqid
  clientid : c.clientid_ = clientid
  state : abs t = a.state

/-- **One COMPOUND** is carried out. -/
theorem carried (h : OnTheWire40 srv stores abs) {q : CompoundCall α} {ops : List ArgOp}
    {d : XdrDecoder α} {x : Serve σ α} (hq : q.Announces ops) (htag : q.tag = [])
    (hdecode : q.decode = do checkCompoundStatus; d) {clientid : UInt64} {a : AtHand σ}
    {c : Nfs4Client} {t : τ} (hlinked : Linked abs clientid a c t)
    (hroom : Room a.auth (totalSize ops)) (hx : Implements (stores a.auth) ops d x) :
    ∃ t', Carried srv (c.request q) q t (x.on a.state).1 t' ∧
      Linked abs clientid { a with state := (x.on a.state).2 } c.sent t' := by
  obtain ⟨auth, open_seqid, s⟩ := a
  obtain ⟨rfl, rfl, rfl, rfl⟩ := hlinked
  have hsize : (Message.compound c.rpc_ 0 q ops hq).size < 2 ^ 31 := by
    have hbody : (Message.compound c.rpc_ 0 q ops hq).bodySize = compoundSize [] (totalSize ops) :=
      congrArg (compoundSize · (totalSize ops)) htag
    unfold Message.size
    rw [hbody]
    exact hroom
  have hread := (Message.readBack_iff (.compound c.rpc_ 0 q ops hq)).mpr hsize
  have hlength : (c.request q).message.length < 2 ^ 31 :=
    (Message.length_message (.compound c.rpc_ 0 q ops hq)).trans_lt hsize
  obtain ⟨hanswers, habs⟩ := h t (c.request q).message (c.request q).header q.tag ops hread.call
    rfl rfl rfl
  refine ⟨_, carried_of_answers (s := abs t) hdecode hx.conveys hlength hanswers, rfl, rfl, rfl, ?_⟩
  -- the machine and the meaning leave the same state
  exact habs.trans (hx.conveys (abs t)).state_eq

theorem Linked.next {clientid : UInt64} {a : AtHand σ} {c : Nfs4Client} {t : τ}
    (h : Linked abs clientid a c t) : Linked abs clientid a.next c.opened t :=
  ⟨h.auth, congrArg (· + 1) h.open_seqid, h.clientid, h.state⟩

/-- What follows the OPEN ends as it does at hand. -/
theorem concludeOpen_ends (h : OnTheWire40 srv stores abs) {clientid : UInt64} {a : AtHand σ}
    {c : Nfs4Client} {t : τ} (hlinked : Linked abs clientid a c t) (hroom : Room a.auth confirmSize)
    {answer : Except Exn (Open4Result × Nfs4Fh)}
    (hfh : ∀ open_res fh, answer = .ok (open_res, fh) → fh.data.length ≤ 128) :
    ∃ n c' t', (concludeOpen a.open_seqid answer c).Ends (socketServe srv.receive) Idle callsLeft n t
        ((concludeAtHand stores (answer, a)).1, c') t' ∧
      Linked abs clientid (concludeAtHand stores (answer, a)).2 c' t' := by
  unfold concludeOpen concludeAtHand
  cases answer with
  | error e => exact ⟨0, c, t, .done _ _, hlinked⟩
  | ok x =>
    obtain ⟨open_res, fh⟩ := x
    dsimp only
    by_cases hflags : open_res.rflags &&& OPEN4_RESULT_CONFIRM ≠ 0
    · rw [if_pos hflags, if_pos hflags]
      obtain ⟨t', hcarried, hlinked'⟩ := carried h (openConfirm_announces fh open_res.stateid
        (a.open_seqid + 1)) rfl rfl hlinked.next
        (hroom.mono (totalSize_confirm_le (hfh _ _ rfl) _ _)) (implements_confirm _ fh _ _)
      obtain ⟨n, r, hends, hresult, -⟩ := hcarried
      rw [hlinked.open_seqid]
      refine ⟨n + 0, c.opened.sent, t', hends.call ?_, hlinked'⟩
      rw [hresult]
      exact .done _ _
    · rw [if_neg hflags, if_neg hflags]
      exact ⟨0, c, t, .done _ _, hlinked⟩

/-- **An open**: its tries, and what follows the last of them. -/
theorem doOpen_ends (h : OnTheWire40 srv stores abs) {clientid : UInt64} {a : AtHand σ}
    {c : Nfs4Client} {t : τ} (hlinked : Linked abs clientid a c t) {fuel : ℕ} {dir : Nfs4Fh}
    {name : Bytes} {share_access : UInt32} {create : Bool}
    (hneeds : OpenNeeds stores fuel clientid dir name share_access create a) :
    ∃ n c' t', (doOpen (fuel + 1) dir name share_access create c).Ends (socketServe srv.receive) Idle
        callsLeft n t ((openAtHand stores fuel clientid dir name share_access create a).1, c') t' ∧
      Linked abs clientid (openAtHand stores fuel clientid dir name share_access create a).2 c' t' := by
  obtain ⟨hroom, hconfirm, hover⟩ := hneeds
  let q := openFile dir name share_access create clientid (a.open_seqid + 1)
  let x := (stores a.auth).opening dir
    (openArgs owner name share_access create clientid a.next.open_seqid)
  have hcarried : ∀ c t s, Linked abs clientid { a.next with state := s } c t →
      ∃ t', Carried srv (c.request q) q t (x.on s).1 t' ∧
        Linked abs clientid { a.next with state := (x.on s).2 } c.sent t' := fun _ _ _ hlinked =>
    carried h (openFile_announces dir name share_access create clientid _) rfl rfl hlinked hroom
      (implements_open _ dir _)
  obtain ⟨n, res, c', t', hends, hres, hlinked'⟩ := retry_ends rfl hcarried fuel hlinked.next hover
  -- what the last try has opened has a handle of the server
  have hfh : ∀ open_res fh, reported4 ((retried x fuel).on a.state).1 = .ok (open_res, fh) →
      fh.data.length ≤ 128 := by
    intro open_res fh hok
    rcases hout : (retried x fuel).on a.state with ⟨status | v, s'⟩
    · rw [hout] at hok
      cases hok
    · rw [hout] at hok
      cases hok
      obtain ⟨s₀, hs₀⟩ := exists_of_retried_ok hout
      exact ObjectStore.length_of_opening hs₀
  obtain ⟨m, c'', t'', hends', hlinked''⟩ := concludeOpen_ends h hlinked' hconfirm hfh
  rw [doOpen_eq, hlinked.clientid, hlinked.open_seqid]
  refine ⟨n + m, c'', t'', hends.bind ?_, hlinked''⟩
  rw [hres]
  exact hends'

theorem readdir_ends (h : OnTheWire40 srv stores abs) {clientid : UInt64} {a : AtHand σ}
    {c : Nfs4Client} {t : τ} (hlinked : Linked abs clientid a c t) {fuel : ℕ} {dir : Nfs4Fh}
    (hroom : Room a.auth (totalSize (readdirOps dir 0 (Octets.zero 8))))
    (hlast : a.Ends stores fuel dir) :
    ∃ n c' t', (readdir fuel dir c).Ends (socketServe srv.receive) Idle callsLeft n t
        ((a.readdir stores fuel dir).1, c') t' ∧
      Linked abs clientid (a.readdir stores fuel dir).2 c' t' := by
  let size := totalSize (readdirOps dir 0 (Octets.zero 8))
  have hpage : (readdirPager dir).Reads (socketServe srv.receive) Idle callsLeft (AtHand.page stores dir)
      fun c t a => Linked abs clientid a c t ∧ Room a.auth size := by
    rintro c t a cookie cookieverf ⟨hlinked, hroom⟩
    -- the cookie and the verifier take no part in the size
    obtain ⟨t', ⟨n, r, hends, hresult, -⟩, hlinked'⟩ := carried h
      (readdirPage_announces dir cookie cookieverf) rfl rfl hlinked hroom (implements_page _ dir _ _)
    exact ⟨n, r, t', hends, congrArg (Except.map _) hresult, hlinked', hroom⟩
  obtain ⟨n, c', t', hends, hlinked', -⟩ :=
    Pager.loop_ends hpage fuel [] ⟨hlinked, hroom⟩ hlast
  rw [readdir, readdirLoop_eq]
  exact ⟨n, c', t', hends, hlinked'⟩

/-- **Every method is transparent.** -/
theorem methods_transparent (h : OnTheWire40 srv stores abs) (fuel : ℕ) (clientid : UInt64) :
    Transparent (socketServe srv.receive) Idle callsLeft (atHand stores fuel clientid)
      (perform (fuel + 1)) (Linked abs clientid) (Method.Needs stores fuel clientid) := by
  intro m a c t hlinked hneeds
  cases m with
  | file m =>
    have hroom : Room a.auth (totalSize m.argOps) := hneeds.mono m.sum_size_argOps.le
    obtain ⟨t', hcarried, hlinked'⟩ := carried h (fileCall_announces m) (tag_fileCall m)
      (fileCall_decode m) hlinked hroom (implements_file _ m)
    obtain ⟨n, hends⟩ := hcarried.ends c.sent
    refine ⟨n, c.sent, t', ?_, hlinked'⟩
    rwa [perform, onRpc_send_eq]
  | openRead dir name => exact doOpen_ends h hlinked hneeds
  | openWrite dir name create => exact doOpen_ends h hlinked hneeds
  | readdir dir => exact readdir_ends h hlinked hneeds.1 hneeds.2
  | renew =>
    obtain ⟨t', hcarried, hlinked'⟩ := carried h (renew_announces clientid) rfl rfl hlinked hneeds
      (implements_renew _ clientid)
    obtain ⟨n, hends⟩ := hcarried.ends c.sent
    refine ⟨n, c.sent, t', ?_, hlinked'⟩
    change (onRpc ((renew c.clientid_).send 0) c).Ends _ _ _ _ _ _ _
    rwa [onRpc_send_eq, hlinked.clientid]
  | setAuthSys auth =>
    exact ⟨0, _, t, .done _ _, rfl, hlinked.open_seqid, hlinked.clientid, hlinked.state⟩
  | clearAuth =>
    exact ⟨0, _, t, .done _ _, rfl, hlinked.open_seqid, hlinked.clientid, hlinked.state⟩

end Nfs4Client

/-- **Minor version 0 is transparent.** A caller of an `Nfs4Client` in any state has the dialogue that it
would have with the stores at hand, and the stores come to the same state, as soon as the connection has
had enough system calls and whatever part of the bytes each of them has transferred. -/
theorem nfs4_client_is_transparent {τ : Type} {srv : Service τ} {stores : Stores σ} {abs : τ → σ}
    (h : OnTheWire40 srv stores abs) (fuel : ℕ)
    (caller : Strategy Nfs4Client.Method fun m => Except Exn m.Result) (c : Nfs4Client) (t : τ)
    (hneeds : caller.Respects (Nfs4Client.atHand stores fuel c.clientid_)
      (Nfs4Client.Method.Needs stores fuel c.clientid_) ⟨c.rpc_.auth_sys_, c.open_seqid_, abs t⟩) :
    let direct := caller.direct (Nfs4Client.atHand stores fuel c.clientid_)
      ⟨c.rpc_.auth_sys_, c.open_seqid_, abs t⟩
    ∃ n, ∀ results : List (Option ℕ), none ∉ results → n ≤ results.length →
      ∃ client s', (caller.dialogue (Nfs4Client.perform (fuel + 1)) c).run (socketServe srv.receive)
          ⟨⟨[], t⟩, [], results⟩ = (some (direct.1, client), s') ∧
        s'.inbox = [] ∧ s'.peer.pending = [] ∧ abs s'.peer.state = direct.2.state := by
  intro direct
  obtain ⟨n, hserved⟩ := served_of_transparent (Nfs4Client.methods_transparent h fuel c.clientid_)
    caller (c := c) ⟨rfl, rfl, rfl, rfl⟩ hneeds
  refine ⟨n, fun results hsteady hn => ?_⟩
  obtain ⟨client, t', s', hrun, hidle, hlinked⟩ := hserved results hsteady hn
  exact ⟨client, s', hrun, hidle.inbox, by rw [hidle.peer], by rw [hidle.peer]; exact hlinked.state⟩

/-- A caller that creates a file, writes to it, reads it back, and asks for its attributes. -/
def Nfs4Client.writer : Strategy Nfs4Client.Method fun m => Except Exn m.Result :=
  .invoke (.openWrite ⟨[]⟩ (ascii "a") true) fun (opened : Except Exn Nfs4File) =>
    match opened with
    | .ok f => .invoke (.file (.write f 0 ⟨2⟩ (ascii "hi"))) fun _ =>
      .invoke (.file (.read f 0 8)) fun _ => .invoke (.file (.getattr f.fh)) fun _ => .stop
    | .error _ => .stop

/-- The third OPEN is behind the grace period, and the file is confirmed. -/
theorem nfs4_writer_served : ∃ n, ∀ results : List (Option ℕ), none ∉ results → n ≤ results.length →
    ∃ client s', (Nfs4Client.writer.dialogue (Nfs4Client.perform 3) Nfs4Client.fresh).run
        (socketServe (wireServer40 fun _ => notepad OPEN4_RESULT_CONFIRM).receive)
        ⟨⟨[], ⟨2, []⟩⟩, [], results⟩ =
      (some ([⟨.openWrite ⟨[]⟩ (ascii "a") true, .ok ⟨⟨[2]⟩, ⟨2, Octets.zero 12⟩, 2⟩⟩,
        ⟨.file (.write ⟨⟨[2]⟩, ⟨2, Octets.zero 12⟩, 2⟩ 0 ⟨2⟩ (ascii "hi")), .ok (2 : UInt32)⟩,
        ⟨.file (.read ⟨⟨[2]⟩, ⟨2, Octets.zero 12⟩, 2⟩ 0 8), .ok (ascii "hi")⟩,
        ⟨.file (.getattr ⟨[2]⟩), .error (.nfs4Error 13 "COMPOUND")⟩], client), s') ∧
      s'.inbox = [] ∧ s'.peer.pending = [] ∧ s'.peer.state = ⟨0, ascii "hi"⟩ := by
  have hwrite : Room none (FileMethod.write ⟨⟨[2]⟩, ⟨2, Octets.zero 12⟩, 2⟩ 0 ⟨2⟩ (ascii "hi")).opsSize :=
    by decide
  have hread : Room none (FileMethod.read ⟨⟨[2]⟩, ⟨2, Octets.zero 12⟩, 2⟩ 0 8).opsSize := by decide
  have hgetattr : Room none (FileMethod.getattr ⟨[2]⟩).opsSize := by decide
  exact nfs4_client_is_transparent (wireServer40_onTheWire fun _ => notepad OPEN4_RESULT_CONFIRM) 2
    Nfs4Client.writer Nfs4Client.fresh ⟨2, []⟩
    ⟨⟨by decide, by decide, nofun⟩, hwrite, hread, hgetattr, trivial⟩

/-! ### Minor version 1 -/

namespace Nfs41Client

/-- What follows the OPEN at hand. Minor version 1 has nothing to confirm with. -/
def concludeAtHand : Except Exn (Open4Result × Nfs4Fh) × AtHand σ → Except Exn Nfs4File × AtHand σ
  | (.error e, a) => (.error e, a)
  | (.ok (open_res, fh), a) =>
    if open_res.rflags &&& OPEN4_RESULT_CONFIRM ≠ 0 then
      (.error (.runtimeError "NFSv4.1 server set OPEN4_RESULT_CONFIRM — protocol error"), a)
    else (.ok ⟨fh, open_res.stateid, a.open_seqid⟩, a)

/-- An open at hand. -/
def openAtHand (stores : Stores σ) (tries : ℕ) (clientid : UInt64) (dir : Nfs4Fh) (name : Bytes)
    (share_access : UInt32) (create : Bool) (a : AtHand σ) : Except Exn Nfs4File × AtHand σ :=
  let a := a.next
  let args := openArgs owner name share_access create clientid a.open_seqid
  concludeAtHand (a.serve (retried ((stores a.auth).opening dir args) tries))

/-- The stores at hand. -/
def atHand (stores : Stores σ) (fuel : ℕ) (clientid : UInt64) :
    Object Method (fun m => Except Exn m.Result) (AtHand σ)
  | .file m, a => a.serve (m.meaning (stores a.auth))
  | .openRead dir name, a => openAtHand stores fuel clientid dir name OPEN4_SHARE_ACCESS_READ false a
  | .openWrite dir name create, a =>
    openAtHand stores fuel clientid dir name OPEN4_SHARE_ACCESS_WRITE create a
  | .readdir dir, a => a.readdir stores (fuel + 1) dir
  | .setAuthSys auth, a => (.ok (), { a with auth := some auth })
  | .clearAuth, a => (.ok (), { a with auth := none })

/-- The size of a SEQUENCE. -/
def sequenceSize : ℕ := 36

/-- What an open needs: room, and an end of the grace period. -/
def OpenNeeds (stores : Stores σ) (tries : ℕ) (clientid : UInt64) (dir : Nfs4Fh) (name : Bytes)
    (share_access : UInt32) (create : Bool) (a : AtHand σ) : Prop :=
  let args := openArgs owner name share_access create clientid a.next.open_seqid
  Room a.auth (sequenceSize + totalSize (openOps dir args)) ∧ a.next.Opens stores tries dir args

/-- What a method needs. -/
def Method.Needs (stores : Stores σ) (fuel : ℕ) (clientid : UInt64) : Method → AtHand σ → Prop
  | .file m, a => Room a.auth (sequenceSize + m.opsSize)
  | .openRead dir name, a =>
    OpenNeeds stores fuel clientid dir name OPEN4_SHARE_ACCESS_READ false a
  | .openWrite dir name create, a =>
    OpenNeeds stores fuel clientid dir name OPEN4_SHARE_ACCESS_WRITE create a
  | .readdir dir, a =>
    Room a.auth (sequenceSize + totalSize (readdirOps dir 0 (Octets.zero 8))) ∧
      a.Ends stores (fuel + 1) dir
  | .setAuthSys _, _ | .clearAuth, _ => True

end Nfs41Client

namespace Nfs41Client

variable {τ α : Type} {srv : Service τ} {stores : Stores σ} {slot : τ → SessionId41 × UInt32}
  {abs : τ → σ}

/-- The client at hand: what it keeps for the server, and what for its caller. -/
structure Linked (slot : τ → SessionId41 × UInt32) (abs : τ → σ) (clientid : UInt64) (a : AtHand σ)
    (c : Nfs41Client) (t : τ) : Prop where
  auth : c.rpc_.auth_sys_ = a.auth
  open_seqid : c.open_seqid_ = a.open_seqid
  clientid : c.clientid_ = clientid
  slot : slot t = (c.sessionid_, c.slot_seqid_)
  state : abs t = a.state

/-- **One COMPOUND** is carried out, and the slot is at the next one. -/
theorem carried (h : OnTheWire41 srv stores slot abs) {q : CompoundCall α} {ops : List ArgOp}
    {d : XdrDecoder α} {x : Serve σ α} (hq : q.Announces ops) (htag : q.tag = [])
    (hdecode : q.decode = do checkCompoundStatus; decodeSequence41Result; d) {clientid : UInt64}
    {a : AtHand σ} {c : Nfs41Client} {t : τ} (hlinked : Linked slot abs clientid a c t)
    (hroom : Room a.auth (sequenceSize + totalSize ops)) (hx : Implements (stores a.auth) ops d x) :
    ∃ t', Carried srv (c.request q) q t (x.on a.state).1 t' ∧
      Linked slot abs clientid { a with state := (x.on a.state).2 } c.sent t' := by
  obtain ⟨auth, open_seqid, s⟩ := a
  obtain ⟨rfl, rfl, rfl, hslot, rfl⟩ := hlinked
  have hsize : (Message.sequenced c q ops hq).size < 2 ^ 31 := by
    have hbody : (Message.sequenced c q ops hq).bodySize =
        compoundSize [] (sequenceSize + totalSize ops) :=
      congrArg (compoundSize · (sequenceSize + totalSize ops)) htag
    unfold Message.size
    rw [hbody]
    exact hroom
  have hread := ((Message.readBack_iff (.sequenced c q ops hq)).mpr hsize).call
  have hlength : (c.request q).message.length < 2 ^ 31 :=
    (Message.length_message (.sequenced c q ops hq)).trans_lt hsize
  -- the request names the sequence id that the slot expects
  have hturn : (Wire.callHeader.pair Compound.format).read (c.request q).message = .ok
      (((c.request q).header, ⟨q.tag, 1, sequenceOp (slot t).1 (slot t).2 :: ops⟩), []) := by
    rw [hslot]
    exact hread
  obtain ⟨⟨r, hanswers⟩, hnext, habs⟩ := h t (c.request q).message (c.request q).header q.tag ops
    hturn rfl rfl rfl
  refine ⟨_, carried_of_answers (s := abs t) hdecode (hx.conveys_sequence r) hlength hanswers, rfl,
    rfl, rfl, ?_, habs.trans (hx.conveys (abs t)).state_eq⟩
  rw [hnext, hslot]
  rfl

theorem Linked.next {clientid : UInt64} {a : AtHand σ} {c : Nfs41Client} {t : τ}
    (h : Linked slot abs clientid a c t) : Linked slot abs clientid a.next c.opened t :=
  ⟨h.auth, congrArg (· + 1) h.open_seqid, h.clientid, h.slot, h.state⟩

/-- **An open**: its tries, and what is made of the last of them. -/
theorem doOpen_ends (h : OnTheWire41 srv stores slot abs) {clientid : UInt64} {a : AtHand σ}
    {c : Nfs41Client} {t : τ} (hlinked : Linked slot abs clientid a c t) {fuel : ℕ} {dir : Nfs4Fh}
    {name : Bytes} {share_access : UInt32} {create : Bool}
    (hneeds : OpenNeeds stores fuel clientid dir name share_access create a) :
    ∃ n c' t', (doOpen (fuel + 1) dir name share_access create c).Ends (socketServe srv.receive) Idle
        callsLeft n t ((openAtHand stores fuel clientid dir name share_access create a).1, c') t' ∧
      Linked slot abs clientid
        (openAtHand stores fuel clientid dir name share_access create a).2 c' t' := by
  obtain ⟨hroom, hover⟩ := hneeds
  let q := openFile dir name share_access create clientid (a.open_seqid + 1)
  let x := (stores a.auth).opening dir
    (openArgs owner name share_access create clientid a.next.open_seqid)
  have hcarried : ∀ c t s, Linked slot abs clientid { a.next with state := s } c t →
      ∃ t', Carried srv (c.request q) q t (x.on s).1 t' ∧
        Linked slot abs clientid { a.next with state := (x.on s).2 } c.sent t' :=
    fun _ _ _ hlinked => carried h (openFile_announces dir name share_access create clientid _) rfl
      rfl hlinked hroom (implements_open _ dir _)
  obtain ⟨n, res, c', t', hends, hres, hlinked'⟩ := retry_ends rfl hcarried fuel hlinked.next hover
  -- nothing is sent behind the tries
  have hconclude : ∀ r : Except Exn (Open4Result × Nfs4Fh) × AtHand σ,
      concludeAtHand r = (concludeOpen r.2.open_seqid r.1, r.2) := by
    rintro ⟨e | ⟨open_res, fh⟩, a⟩
    · rfl
    · unfold concludeAtHand concludeOpen
      dsimp only [Except.bind]
      split <;> rfl
  rw [doOpen_eq, hlinked.clientid, hlinked.open_seqid, openAtHand, hconclude]
  refine ⟨n + 0, c', t', hends.bind ?_, hlinked'⟩
  rw [hres]
  exact .done _ _

theorem readdir_ends (h : OnTheWire41 srv stores slot abs) {clientid : UInt64} {a : AtHand σ}
    {c : Nfs41Client} {t : τ} (hlinked : Linked slot abs clientid a c t) {fuel : ℕ} {dir : Nfs4Fh}
    (hroom : Room a.auth (sequenceSize + totalSize (readdirOps dir 0 (Octets.zero 8))))
    (hlast : a.Ends stores fuel dir) :
    ∃ n c' t', (readdir fuel dir c).Ends (socketServe srv.receive) Idle callsLeft n t
        ((a.readdir stores fuel dir).1, c') t' ∧
      Linked slot abs clientid (a.readdir stores fuel dir).2 c' t' := by
  let size := sequenceSize + totalSize (readdirOps dir 0 (Octets.zero 8))
  have hpage : (readdirPager dir).Reads (socketServe srv.receive) Idle callsLeft (AtHand.page stores dir)
      fun c t a => Linked slot abs clientid a c t ∧ Room a.auth size := by
    rintro c t a cookie cookieverf ⟨hlinked, hroom⟩
    -- the cookie and the verifier take no part in the size
    obtain ⟨t', ⟨n, r, hends, hresult, -⟩, hlinked'⟩ := carried h
      (readdirPage_announces dir cookie cookieverf) rfl rfl hlinked hroom (implements_page _ dir _ _)
    exact ⟨n, r, t', hends, congrArg (Except.map _) hresult, hlinked', hroom⟩
  obtain ⟨n, c', t', hends, hlinked', -⟩ :=
    Pager.loop_ends hpage fuel [] ⟨hlinked, hroom⟩ hlast
  rw [readdir, readdirLoop_eq]
  exact ⟨n, c', t', hends, hlinked'⟩

/-- **Every method is transparent.** -/
theorem methods_transparent (h : OnTheWire41 srv stores slot abs) (fuel : ℕ) (clientid : UInt64) :
    Transparent (socketServe srv.receive) Idle callsLeft (atHand stores fuel clientid)
      (perform (fuel + 1)) (Linked slot abs clientid) (Method.Needs stores fuel clientid) := by
  intro m a c t hlinked hneeds
  cases m with
  | file m =>
    have hroom : Room a.auth (sequenceSize + totalSize m.argOps) :=
      hneeds.mono (Nat.add_le_add_left m.sum_size_argOps.le _)
    obtain ⟨t', hcarried, hlinked'⟩ := carried h (fileCall_announces m) (tag_fileCall m)
      (fileCall_decode m) hlinked hroom (implements_file _ m)
    obtain ⟨n, hends⟩ := hcarried.ends c.sent
    refine ⟨n, c.sent, t', ?_, hlinked'⟩
    rwa [perform, call_eq]
  | openRead dir name => exact doOpen_ends h hlinked hneeds
  | openWrite dir name create => exact doOpen_ends h hlinked hneeds
  | readdir dir => exact readdir_ends h hlinked hneeds.1 hneeds.2
  | setAuthSys auth =>
    exact ⟨0, _, t, .done _ _, rfl, hlinked.open_seqid, hlinked.clientid, hlinked.slot, hlinked.state⟩
  | clearAuth =>
    exact ⟨0, _, t, .done _ _, rfl, hlinked.open_seqid, hlinked.clientid, hlinked.slot, hlinked.state⟩

end Nfs41Client

/-- **Minor version 1 is transparent.** A caller of an `Nfs41Client` that is in turn in its session has
the dialogue that it would have with the stores at hand, without a session, and the stores come to the
same state; the client is in turn again. -/
theorem nfs41_client_is_transparent {τ : Type} {srv : Service τ} {stores : Stores σ}
    {slot : τ → SessionId41 × UInt32} {abs : τ → σ} (h : OnTheWire41 srv stores slot abs) (fuel : ℕ)
    (caller : Strategy Nfs41Client.Method fun m => Except Exn m.Result) (c : Nfs41Client) (t : τ)
    (hslot : slot t = (c.sessionid_, c.slot_seqid_))
    (hneeds : caller.Respects (Nfs41Client.atHand stores fuel c.clientid_)
      (Nfs41Client.Method.Needs stores fuel c.clientid_) ⟨c.rpc_.auth_sys_, c.open_seqid_, abs t⟩) :
    let direct := caller.direct (Nfs41Client.atHand stores fuel c.clientid_)
      ⟨c.rpc_.auth_sys_, c.open_seqid_, abs t⟩
    ∃ n, ∀ results : List (Option ℕ), none ∉ results → n ≤ results.length →
      ∃ client s', (caller.dialogue (Nfs41Client.perform (fuel + 1)) c).run (socketServe srv.receive)
          ⟨⟨[], t⟩, [], results⟩ = (some (direct.1, client), s') ∧
        s'.inbox = [] ∧ s'.peer.pending = [] ∧ abs s'.peer.state = direct.2.state ∧
        slot s'.peer.state = (client.sessionid_, client.slot_seqid_) := by
  intro direct
  obtain ⟨n, hserved⟩ := served_of_transparent (Nfs41Client.methods_transparent h fuel c.clientid_)
    caller (c := c) ⟨rfl, rfl, rfl, hslot, rfl⟩ hneeds
  refine ⟨n, fun results hsteady hn => ?_⟩
  obtain ⟨client, t', s', hrun, hidle, hlinked⟩ := hserved results hsteady hn
  refine ⟨client, s', hrun, hidle.inbox, ?_⟩
  rw [hidle.peer]
  exact ⟨rfl, hlinked.state, hlinked.slot⟩

end

/-- The same caller. -/
def Nfs41Client.writer : Strategy Nfs41Client.Method fun m => Except Exn m.Result :=
  .invoke (.openWrite ⟨[]⟩ (ascii "a") true) fun (opened : Except Exn Nfs4File) =>
    match opened with
    | .ok f => .invoke (.file (.write f 0 ⟨2⟩ (ascii "hi"))) fun _ =>
      .invoke (.file (.read f 0 8)) fun _ => .invoke (.file (.getattr f.fh)) fun _ => .stop
    | .error _ => .stop

/-- Six COMPOUNDs, three of them tries, have gone through the slot. -/
theorem nfs41_writer_served : ∃ n, ∀ results : List (Option ℕ), none ∉ results → n ≤ results.length →
    ∃ client s', (Nfs41Client.writer.dialogue (Nfs41Client.perform 3) Nfs41Client.fresh).run
        (socketServe (wireServer41 fun _ => notepad 0).receive)
        ⟨⟨[], ⟨Octets.zero 16, 3, ⟨2, []⟩⟩⟩, [], results⟩ =
      (some ([⟨.openWrite ⟨[]⟩ (ascii "a") true, .ok ⟨⟨[2]⟩, ⟨1, Octets.zero 12⟩, 1⟩⟩,
        ⟨.file (.write ⟨⟨[2]⟩, ⟨1, Octets.zero 12⟩, 1⟩ 0 ⟨2⟩ (ascii "hi")), .ok (2 : UInt32)⟩,
        ⟨.file (.read ⟨⟨[2]⟩, ⟨1, Octets.zero 12⟩, 1⟩ 0 8), .ok (ascii "hi")⟩,
        ⟨.file (.getattr ⟨[2]⟩), .error (.nfs4Error 13 "COMPOUND")⟩], client), s') ∧
      s'.inbox = [] ∧ s'.peer.pending = [] ∧ s'.peer.state.state = ⟨0, ascii "hi"⟩ ∧
      (s'.peer.state.sessionid, s'.peer.state.sequenceid) = (client.sessionid_, client.slot_seqid_) := by
  have hwrite : Room none (Nfs41Client.sequenceSize +
      (FileMethod.write ⟨⟨[2]⟩, ⟨1, Octets.zero 12⟩, 1⟩ 0 ⟨2⟩ (ascii "hi")).opsSize) := by decide
  have hread : Room none (Nfs41Client.sequenceSize +
      (FileMethod.read ⟨⟨[2]⟩, ⟨1, Octets.zero 12⟩, 1⟩ 0 8).opsSize) := by decide
  have hgetattr : Room none (Nfs41Client.sequenceSize + (FileMethod.getattr ⟨[2]⟩).opsSize) := by
    decide
  exact nfs41_client_is_transparent (wireServer41_onTheWire fun _ => notepad 0) 2 Nfs41Client.writer
    Nfs41Client.fresh ⟨Octets.zero 16, 3, ⟨2, []⟩⟩ rfl
    ⟨⟨by decide, nofun⟩, hwrite, hread, hgetattr, trivial⟩

end NfsClient
