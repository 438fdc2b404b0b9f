import NfsClient.Lib.Paging
import NfsClient.Nfs3.Client
import NfsClient.Nfs4.Client40
import NfsClient.Nfs4.Client41

/-!
# The page loops

The four directory listings have each a loop of its own in the source. `readdirLoop_eq` and its
companions say that each of them is `Pager.loop` with its own request and its own reply, so that what
is proved about the loop of `Lib/Paging` holds of all four. A loop is reduced in two steps: the call
of a page is one request whose response is decoded (`perform_eq`, `onRpc_send_eq`, `call_eq`), and the
statements behind it are the body of the loop.
-/

namespace NfsClient

open Xdr Interaction Paging

/-- A call and the decoding of its reply. -/
theorem bind_decode_eq {σ α : Type} {m : ClientM σ Bytes} {d : XdrDecoder α} {c c' : σ}
    {q : RpcRequest} (h : m c = .call q fun r => .done (r.bind parseReply, c')) :
    (m >>= ClientM.decode d) c =
      .call q fun r =>
        .done ((r.bind parseReply).bind fun reply => (d reply).map Prod.fst, c') := by
  refine (ClientM.bind_of_call h).trans (congrArg _ (funext fun r => ?_))
  cases r.bind parseReply with
  | error e => rfl
  | ok reply =>
    change ClientM.decode d reply c' = .done ((d reply).map Prod.fst, c')
    unfold ClientM.decode
    cases d reply <;> rfl

theorem CompoundCall.send_eq {α : Type} (q : CompoundCall α) (minorversion : UInt32)
    (rpc : TcpRpcClient) :
    q.send minorversion rpc =
      .call (q.request rpc minorversion) fun r => .done (q.result r, rpc.bump) :=
  bind_decode_eq rfl

/-- An iteration: the call of a page and the statements behind it. -/
theorem bind_eq_loop {σ π ν ε : Type} {P : Pager RpcRequest Received σ UInt64 ν ε Exn}
    {m : ClientM σ π} {f : π → ClientM σ (List ε)} {result : Received → Except Exn π}
    {toPage : π → Page ν ε} {fuel : ℕ} {cookie : UInt64} {verf : ν} {all : List ε} {c : σ}
    (hm : m c = .call (P.request c cookie verf) fun r => .done (result r, P.sent c))
    (hpage : ∀ r, P.page r = (result r).map toPage)
    (hlast : ∀ page, (toPage page).eof = true →
      f page (P.sent c) = .done (.ok (all ++ (toPage page).entries), P.sent c))
    (hmore : ∀ page, (toPage page).eof = false →
      f page (P.sent c) = P.loop fuel (lastCookie P.cookie cookie (toPage page).entries)
        (toPage page).verf (all ++ (toPage page).entries) (P.sent c)) :
    (m >>= f) c = P.loop (fuel + 1) cookie verf all c := by
  refine (ClientM.bind_of_call hm).trans (congrArg _ (funext fun r => ?_))
  rw [hpage]
  cases result r with
  | error e => rfl
  | ok page =>
    change f page (P.sent c) = if (toPage page).eof then _ else _
    cases heof : (toPage page).eof with
    | true => exact hlast page heof
    | false => exact hmore page heof

/-! ### NFSv3 -/

namespace Nfs3

theorem Call.perform_eq (c : Call) (rpc : TcpRpcClient) :
    c.perform rpc = .call (c.request rpc) fun r => .done (c.result r, rpc.bump) :=
  bind_decode_eq rfl

/-- The reply to a page is decoded in the same way for every place. -/
def readdirPager (dir : Fh3) (count : UInt32) :
    Pager RpcRequest Received TcpRpcClient UInt64 (Octets 8) DirEntry3 Exn where
  request rpc cookie cookieverf := (Call.readdirPage dir cookie cookieverf count).request rpc
  page r := ((Call.readdirPage dir 0 (Octets.zero 8) count).result r).map fun page =>
    ⟨page.entries, page.cookieverf, page.eof⟩
  sent := TcpRpcClient.bump
  cookie := DirEntry3.cookie

theorem readdirLoop_eq (dir : Fh3) (count : UInt32) :
    ∀ (fuel : ℕ) (cookie : UInt64) (cookieverf : Octets 8) (all : List DirEntry3)
      (rpc : TcpRpcClient),
      readdirLoop dir count fuel cookie cookieverf all rpc =
        (readdirPager dir count).loop fuel cookie cookieverf all rpc
  | 0, _, _, _, _ => rfl
  | fuel + 1, cookie, cookieverf, all, rpc => by
    refine bind_eq_loop (Call.perform_eq _ rpc) (fun _ => rfl) ?_ ?_
    · intro page heof
      rw [if_pos heof]
      rfl
    · intro page heof
      rw [if_neg (ne_true_of_eq_false heof)]
      exact readdirLoop_eq dir count fuel _ _ _ _

def readdirplusPager (dir : Fh3) (dircount maxcount : UInt32) :
    Pager RpcRequest Received TcpRpcClient UInt64 (Octets 8) DirEntryPlus3 Exn where
  request rpc cookie cookieverf :=
    (Call.readdirplusPage dir cookie cookieverf dircount maxcount).request rpc
  page r := ((Call.readdirplusPage dir 0 (Octets.zero 8) dircount maxcount).result r).map
    fun page => ⟨page.entries, page.cookieverf, page.eof⟩
  sent := TcpRpcClient.bump
  cookie := DirEntryPlus3.cookie

theorem readdirplusLoop_eq (dir : Fh3) (dircount maxcount : UInt32) :
    ∀ (fuel : ℕ) (cookie : UInt64) (cookieverf : Octets 8) (all : List DirEntryPlus3)
      (rpc : TcpRpcClient),
      readdirplusLoop dir dircount maxcount fuel cookie cookieverf all rpc =
        (readdirplusPager dir dircount maxcount).loop fuel cookie cookieverf all rpc
  | 0, _, _, _, _ => rfl
  | fuel + 1, cookie, cookieverf, all, rpc => by
    refine bind_eq_loop (Call.perform_eq _ rpc) (fun _ => rfl) ?_ ?_
    · intro page heof
      rw [if_pos heof]
      rfl
    · intro page heof
      rw [if_neg (ne_true_of_eq_false heof)]
      exact readdirplusLoop_eq dir dircount maxcount fuel _ _ _ _

end Nfs3

/-! ### NFSv4.0 -/

namespace Nfs4Client

theorem onRpc_send_eq {α : Type} (q : CompoundCall α) (c : Nfs4Client) :
    onRpc (q.send 0) c = .call (c.request q) fun r => .done (q.result r, c.sent) := by
  change (q.send 0 c.rpc_).bind _ = _
  rw [CompoundCall.send_eq]
  rfl

def readdirPager (dir : Nfs4Fh) :
    Pager RpcRequest Received Nfs4Client UInt64 (Octets 8) Nfs4DirEntry Exn where
  request c cookie cookieverf := c.request (readdirPage dir cookie cookieverf)
  page r := ((readdirPage dir 0 (Octets.zero 8)).result r).map fun page =>
    ⟨page.entries, page.cookieverf, page.eof⟩
  sent := sent
  cookie := Nfs4DirEntry.cookie

theorem readdirLoop_eq (dir : Nfs4Fh) :
    ∀ (fuel : ℕ) (cookie : UInt64) (cookieverf : Octets 8) (all : List Nfs4DirEntry)
      (c : Nfs4Client),
      readdirLoop dir fuel cookie cookieverf all c =
        (readdirPager dir).loop fuel cookie cookieverf all c
  | 0, _, _, _, _ => rfl
  | fuel + 1, cookie, cookieverf, all, c => by
    refine bind_eq_loop (onRpc_send_eq _ c) (fun _ => rfl) ?_ ?_
    · intro page heof
      rw [if_pos heof]
      rfl
    · intro page heof
      rw [if_neg (ne_true_of_eq_false heof)]
      exact readdirLoop_eq dir fuel _ _ _ _

end Nfs4Client

/-! ### NFSv4.1 -/

namespace Nfs41Client

theorem call_eq {α : Type} (q : CompoundCall α) (c : Nfs41Client) :
    call q c = .call (c.request q) fun r => .done (q.result r, c.sent) :=
  bind_decode_eq rfl

def readdirPager (dir : Nfs4Fh) :
    Pager RpcRequest Received Nfs41Client UInt64 (Octets 8) Nfs4DirEntry Exn where
  request c cookie cookieverf := c.request (readdirPage dir cookie cookieverf)
  page r := ((readdirPage dir 0 (Octets.zero 8)).result r).map fun page =>
    ⟨page.entries, page.cookieverf, page.eof⟩
  sent := sent
  cookie := Nfs4DirEntry.cookie

theorem readdirLoop_eq (dir : Nfs4Fh) :
    ∀ (fuel : ℕ) (cookie : UInt64) (cookieverf : Octets 8) (all : List Nfs4DirEntry)
      (c : Nfs41Client),
      readdirLoop dir fuel cookie cookieverf all c =
        (readdirPager dir).loop fuel cookie cookieverf all c
  | 0, _, _, _, _ => rfl
  | fuel + 1, cookie, cookieverf, all, c => by
    refine bind_eq_loop (call_eq _ c) (fun _ => rfl) ?_ ?_
    · intro page heof
      rw [if_pos heof]
      rfl
    · intro page heof
      rw [if_neg (ne_true_of_eq_false heof)]
      exact readdirLoop_eq dir fuel _ _ _ _

end Nfs41Client

end NfsClient
