import NfsClient.Listing.Loops
import NfsClient.Nfs3.Replies
import NfsClient.Nfs4.Readdir
import NfsClient.Nfs4.WellFormed

/-!
# Listings are complete

A server with a finite directory, whose entries have distinct cookies other than 0, may cut it into
pages as it likes and give each page any verifier; it wants the verifier back. Each of the four
listings then asks for what the server expects and returns the directory, in order
(`listings_complete`).

What is specific to a protocol is how a request asks for a page and how a record carries one: the
server reads the bytes of the request, and writes those of the reply, in the formats of the RFCs. That
the client speaks this language (`readdirPager_speaks` and its companions) is the well-formedness of
the requests and the exactness of the decoders; the rest is `Pager.Speaks.loop_lists`.
-/

namespace NfsClient

open Xdr Reader Interaction Paging

/-! ### NFSv3 -/

namespace Nfs3

/-- A call of a procedure with the given arguments, as a server reads it. -/
structure Asks (p : Proc) (q : RpcRequest) (a : p.Args) : Prop where
  prog : q.prog = NFS_PROG
  vers : q.vers = NFS_VERS
  proc : q.proc = p.code
  args : p.argFormat.read q.args = .ok (a, [])

/-- An accepted REPLY with the given result of a procedure. -/
def Carries (p : Proc) (received : Received) (r : p.Ok) : Prop :=
  ∃ (xid flavor : UInt32) (verf : Bytes), verf.length < 2 ^ 32 ∧ p.okFormat.Fits r ∧
    received = .ok (acceptedHeader xid flavor verf ++ p.okBytes r)

theorem Asks.unique {p : Proc} {q : RpcRequest} {a b : p.Args} (ha : Asks p q a)
    (hb : Asks p q b) : a = b := by
  cases ha.args.symm.trans hb.args
  rfl

theorem Call.asks {c : Call} (h : c.Fits) (rpc : TcpRpcClient) :
    Asks c.proc (c.request rpc) c.args := ⟨rfl, rfl, c.number_eq, Call.read_encodeArgs h⟩

theorem Call.result_of_carries {c : Call} {received : Received} {r : c.proc.Ok}
    (h : Carries c.proc received r) : c.result received = c.outcome r := by
  obtain ⟨xid, flavor, verf, hverf, hfits, rfl⟩ := h
  have hparse : Except.bind (.ok (acceptedHeader xid flavor verf ++ c.proc.okBytes r)) parseReply
      = .ok (c.proc.okBytes r) := parseReply_accepted xid flavor hverf _
  have hdecode := c.decodeReply_ok hfits []
  rw [List.append_nil] at hdecode
  unfold Call.result
  rw [hparse]
  change (c.decodeReply (c.proc.okBytes r)).map Prod.fst = _
  rw [hdecode]
  cases c.outcome r <;> rfl

theorem Proc.code_injective {p p' : Proc} (h : p.code = p'.code) : p = p' := by
  revert h
  cases p <;> cases p' <;> decide

theorem Asks.proc_eq {p p' : Proc} {q : RpcRequest} {a : p.Args} {b : p'.Args} (ha : Asks p q a)
    (hb : Asks p' q b) : p = p' :=
  Proc.code_injective (ha.proc.symm.trans hb.proc)

/-- A call asks for its own procedure only. -/
theorem Call.not_asks {c : Call} {p : Proc} (h : c.proc ≠ p) (rpc : TcpRpcClient) (a : p.Args) :
    ¬ Asks p (c.request rpc) a :=
  fun hasks => h (Proc.code_injective (c.number_eq.symm.trans hasks.proc))

/-- What a reply can say, a reply says. -/
theorem exists_carries {p : Proc} {r : p.Ok} (h : p.okFormat.Fits r) :
    ∃ received, Carries p received r :=
  ⟨_, 1, 0, [], Nat.two_pow_pos 32, h, rfl⟩

/-- READDIR of `dir` from `cookie` on. -/
def AsksReaddir (dir : Fh3) (q : RpcRequest) (cookie : UInt64) (cookieverf : Octets 8) : Prop :=
  ∃ count, Asks .READDIR q (dir.data, cookie, cookieverf, count)

def CarriesReaddir (received : Received) (page : Page (Octets 8) DirEntry3) : Prop :=
  ∃ attrs, Carries .READDIR received (attrs, page.verf, page.entries, page.eof)

theorem readdirPager_speaks {dir : Fh3} (hd : dir.data.length < 2 ^ 32) (count : UInt32) :
    (readdirPager dir count).Speaks (AsksReaddir dir) CarriesReaddir DirEntry3.cookie id where
  asks_iff rpc cookie cookieverf cookie' cookieverf' := by
    have hasks := Call.asks (c := .readdirPage dir cookie cookieverf count) hd rpc
    constructor
    · rintro ⟨count', h⟩
      cases hasks.unique h
      exact ⟨rfl, rfl⟩
    · rintro ⟨rfl, rfl⟩
      exact ⟨count, hasks⟩
  page_ok received page h := by
    obtain ⟨attrs, h⟩ := h
    have hresult := Call.result_of_carries (c := .readdirPage dir 0 (Octets.zero 8) count) h
    simp only [readdirPager, hresult, List.map_id]
    rfl
  cookie_view e := rfl

/-- READDIRPLUS of `dir` from `cookie` on. -/
def AsksReaddirplus (dir : Fh3) (q : RpcRequest) (cookie : UInt64) (cookieverf : Octets 8) : Prop :=
  ∃ dircount maxcount, Asks .READDIRPLUS q (dir.data, cookie, cookieverf, dircount, maxcount)

def CarriesReaddirplus (received : Received) (page : Page (Octets 8) EntryPlus) : Prop :=
  ∃ attrs, Carries .READDIRPLUS received (attrs, page.verf, page.entries, page.eof)

/-- The cookie of an entry of READDIRPLUS. -/
def EntryPlus.cookie (e : EntryPlus) : UInt64 := e.2.2.1

theorem readdirplusPager_speaks {dir : Fh3} (hd : dir.data.length < 2 ^ 32)
    (dircount maxcount : UInt32) :
    (readdirplusPager dir dircount maxcount).Speaks (AsksReaddirplus dir) CarriesReaddirplus
      EntryPlus.cookie EntryPlus.view where
  asks_iff rpc cookie cookieverf cookie' cookieverf' := by
    have hasks :=
      Call.asks (c := .readdirplusPage dir cookie cookieverf dircount maxcount) hd rpc
    constructor
    -- arguments are read in one way only
    · rintro ⟨dircount', maxcount', h⟩
      cases hasks.unique h
      exact ⟨rfl, rfl⟩
    · rintro ⟨rfl, rfl⟩
      exact ⟨dircount, maxcount, hasks⟩
  page_ok received page h := by
    obtain ⟨attrs, h⟩ := h
    have hresult :=
      Call.result_of_carries (c := .readdirplusPage dir 0 (Octets.zero 8) dircount maxcount) h
    simp only [readdirplusPager, hresult]
    rfl
  cookie_view e := by
    obtain ⟨fileid, name, cookie, attrs, fh⟩ := e
    rfl

end Nfs3

/-! ### NFSv4 -/

/-- What is carried out is determined by the bytes. -/
theorem CarriesOut.unique {minorversion minorversion' : UInt32} {args : Bytes}
    {es es' : List Effect} (h : CarriesOut minorversion args es)
    (h' : CarriesOut minorversion' args es') : es = es' := by
  obtain ⟨c, hread, -, rfl⟩ := h
  obtain ⟨c', hread', -, rfl⟩ := h'
  cases hread.symm.trans hread'
  rfl

theorem readdirEffects_inj {dir dir' : Nfs4Fh} {cookie cookie' : UInt64}
    {cookieverf cookieverf' : Octets 8}
    (h : readdirEffects dir cookie cookieverf = readdirEffects dir' cookie' cookieverf') :
    cookie' = cookie ∧ cookieverf' = cookieverf := by
  have hop := congrArg Effect.op (List.cons.inj h).1
  cases eq_of_heq (Sigma.mk.inj hop).2
  exact ⟨rfl, rfl⟩

/-- A success reply to the operations, with a READDIR result last. -/
def CarriesReaddir4 (ops : List ArgOp) (received : Received) (page : Page (Octets 8) ServerEntry) :
    Prop :=
  ∃ reply : SuccessReply, reply.AnswersTo ops ∧ reply.InRecord received ∧
    reply.results.getLast? = some ⟨.READDIR, readdirRes page.verf page.entries page.eof⟩

theorem CompoundCall.result_of_carries {q : CompoundCall ReaddirPage4} {ops : List ArgOp}
    {received : Received} {page : Page (Octets 8) ServerEntry}
    (hq : q.DecodesExactly ops PageEncodes) (h : CarriesReaddir4 ops received page) :
    q.result received = .ok ⟨page.verf, page.entries.map ServerEntry.view, page.eof⟩ := by
  obtain ⟨reply, hreply, hrecord, hlast⟩ := h
  exact CompoundCall.result_of_decode hrecord (hq reply _ hreply ⟨_, _, _, hlast, rfl⟩)

namespace Nfs4Client

/-- A COMPOUND that lists `dir` from `cookie` on. -/
def AsksReaddir (dir : Nfs4Fh) (q : RpcRequest) (cookie : UInt64) (cookieverf : Octets 8) : Prop :=
  q.IsCompound 0 (readdirEffects dir cookie cookieverf)

theorem readdirPager_speaks {dir : Nfs4Fh} (hd : dir.data.length < 2 ^ 32) :
    (readdirPager dir).Speaks (AsksReaddir dir)
      (CarriesReaddir4 (readdirOps dir 0 (Octets.zero 8))) ServerEntry.cookie ServerEntry.view where
  asks_iff c cookie cookieverf cookie' cookieverf' := by
    have hasks := isCompound_readdir hd cookie cookieverf c.rpc_
    constructor
    · exact fun h => readdirEffects_inj (hasks.args.unique h.args)
    · rintro ⟨rfl, rfl⟩
      exact hasks
  page_ok received page h := by
    have hresult := CompoundCall.result_of_carries (readdirPage_exact dir 0 (Octets.zero 8)) h
    simp only [readdirPager, hresult]
    rfl
  cookie_view e := rfl

end Nfs4Client

namespace Nfs41Client

/-- A COMPOUND in a session that lists `dir` from `cookie` on. -/
def AsksReaddir (dir : Nfs4Fh) (q : RpcRequest) (cookie : UInt64) (cookieverf : Octets 8) : Prop :=
  ∃ sessionid, InSession sessionid q (readdirEffects dir cookie cookieverf)

/-- A success reply to such a COMPOUND. -/
def CarriesReaddir (dir : Nfs4Fh) (received : Received) (page : Page (Octets 8) ServerEntry) :
    Prop :=
  ∃ sessionid slot_seqid, CarriesReaddir4
    (sequenceOp sessionid slot_seqid :: readdirOps dir 0 (Octets.zero 8)) received page

theorem readdirPager_speaks {dir : Nfs4Fh} (hd : dir.data.length < 2 ^ 32) :
    (readdirPager dir).Speaks (AsksReaddir dir) (CarriesReaddir dir) ServerEntry.cookie
      ServerEntry.view where
  asks_iff c cookie cookieverf cookie' cookieverf' := by
    have hasks := isCompound_readdir hd cookie cookieverf c
    constructor
    · rintro ⟨sessionid, slot_seqid, h⟩
      obtain ⟨slot_seqid', h'⟩ := hasks
      exact readdirEffects_inj (List.cons.inj (h'.args.unique h.args)).2
    · rintro ⟨rfl, rfl⟩
      exact ⟨c.sessionid_, hasks⟩
  page_ok received page h := by
    obtain ⟨sessionid, slot_seqid, h⟩ := h
    have hresult := CompoundCall.result_of_carries
      (readdirPage_exact dir 0 (Octets.zero 8) sessionid slot_seqid) h
    simp only [readdirPager, hresult]
    rfl
  cookie_view e := rfl

end Nfs41Client

/-! ### All four -/

open Nfs3 in
/-- **Listings are complete.** Against every server with a finite directory that cuts it into pages,
each listing sends only requests that the server expects, the first with cookie 0 and a verifier of
zeros and each later one with the last entry's cookie and the verifier of the page before, and returns
the entries of the directory, in order. -/
theorem listings_complete :
    (∀ (dir : Fh3) (count : UInt32) (L : Listing DirEntry3.cookie 0) (rpc : TcpRpcClient)
      (fuel : ℕ), dir.data.length < 2 ^ 32 → L.entries.length < fuel →
      twp (L.serve (AsksReaddir dir) CarriesReaddir) (Listing.Expects (AsksReaddir dir))
        (fun rc _ => rc.1 = .ok L.entries) (readdir fuel dir count rpc) (0, Octets.zero 8)) ∧
    (∀ (dir : Fh3) (dircount maxcount : UInt32) (L : Listing EntryPlus.cookie 0)
      (rpc : TcpRpcClient) (fuel : ℕ), dir.data.length < 2 ^ 32 → L.entries.length < fuel →
      twp (L.serve (AsksReaddirplus dir) CarriesReaddirplus) (Listing.Expects (AsksReaddirplus dir))
        (fun rc _ => rc.1 = .ok (L.entries.map EntryPlus.view))
        (readdirplus fuel dir dircount maxcount rpc) (0, Octets.zero 8)) ∧
    (∀ (dir : Nfs4Fh) (L : Listing ServerEntry.cookie 0) (c : Nfs4Client) (fuel : ℕ),
      dir.data.length < 2 ^ 32 → L.entries.length < fuel →
      twp (L.serve (Nfs4Client.AsksReaddir dir)
          (CarriesReaddir4 (readdirOps dir 0 (Octets.zero 8))))
        (Listing.Expects (Nfs4Client.AsksReaddir dir))
        (fun rc _ => rc.1 = .ok (L.entries.map ServerEntry.view))
        (Nfs4Client.readdir fuel dir c) (0, Octets.zero 8)) ∧
    ∀ (dir : Nfs4Fh) (L : Listing ServerEntry.cookie 0) (c : Nfs41Client) (fuel : ℕ),
      dir.data.length < 2 ^ 32 → L.entries.length < fuel →
      twp (L.serve (Nfs41Client.AsksReaddir dir) (Nfs41Client.CarriesReaddir dir))
        (Listing.Expects (Nfs41Client.AsksReaddir dir))
        (fun rc _ => rc.1 = .ok (L.entries.map ServerEntry.view))
        (Nfs41Client.readdir fuel dir c) (0, Octets.zero 8) := by
  refine ⟨fun dir count L rpc fuel hd hfuel => ?_, fun dir dircount maxcount L rpc fuel hd hfuel => ?_,
    fun dir L c fuel hd hfuel => ?_, fun dir L c fuel hd hfuel => ?_⟩
  · have h := (readdirPager_speaks hd count).loop_lists L hfuel (Octets.zero 8) rpc
    rw [List.map_id, ← readdirLoop_eq] at h
    exact h
  · have h := (readdirplusPager_speaks hd dircount maxcount).loop_lists L hfuel (Octets.zero 8) rpc
    rwa [← readdirplusLoop_eq] at h
  · have h := (Nfs4Client.readdirPager_speaks hd).loop_lists L hfuel (Octets.zero 8) c
    rwa [← Nfs4Client.readdirLoop_eq] at h
  · have h := (Nfs41Client.readdirPager_speaks hd).loop_lists L hfuel (Octets.zero 8) c
    rwa [← Nfs41Client.readdirLoop_eq] at h

/-- A directory with two entries. -/
def twoEntries : Listing DirEntry3.cookie 0 where
  entries := [⟨11, [97], 5⟩, ⟨12, [98], 3⟩]
  nodup := by decide

open Nfs3 in
theorem two_entries_listed :
    twp (twoEntries.serve (AsksReaddir ⟨[1, 2]⟩) CarriesReaddir)
      (Listing.Expects (AsksReaddir ⟨[1, 2]⟩))
      (fun rc _ => rc.1 = .ok [⟨11, [97], 5⟩, ⟨12, [98], 3⟩])
      (readdir 3 ⟨[1, 2]⟩ 4096 (TcpRpcClient.connect 2049)) (0, Octets.zero 8) :=
  listings_complete.1 ⟨[1, 2]⟩ 4096 twoEntries _ 3 (by decide) (by decide)

end NfsClient
