import NfsClient.Rpc.Socket

/-!
# Matching replies to calls

Runs of calls on one `TcpRpcClient` against a server that answers each request it receives exactly
once, in order, with the request's own xid (`RpcServer`). The client never compares the xid of a
reply with the one it sent, so all that ties a reply to its call is the position in the stream.

`Synced` is the state of the connection in which that position is right: the client has read
everything the server wrote and the server is at a request boundary. A call whose exchange
completes goes from `Synced` to `Synced` and reads the server's answer to its own request
(`exchange_ok`); so does a call whose first `send()` fails, which leaves the socket alone. A call
that fails anywhere else does not: the bytes of its reply stay in the stream, and the next call
takes them for its own (`stale_reply`). `reply_matching` is the run statement.
-/

namespace NfsClient

open Xdr Reader Interaction

/-! ### A conforming server -/

/-- A fragment that is not the last of its record. -/
def fragmentBytes (f : Bytes) : Bytes := word (UInt32.ofNat f.length) ++ f

/-- The last fragment of a record. -/
def lastFragmentBytes (f : Bytes) : Bytes := word (UInt32.ofNat (2 ^ 31 + f.length)) ++ f

/-- A reply record as the server cuts it into fragments. -/
structure FramedReply where
  fragments : List Bytes
  last : Bytes
  fragments_short : ∀ f ∈ fragments, f.length < 2 ^ 31
  last_short : last.length < 2 ^ 31

def FramedReply.record (r : FramedReply) : Bytes := r.fragments.flatten ++ r.last

def FramedReply.bytes (r : FramedReply) : Bytes :=
  r.fragments.flatMap fragmentBytes ++ lastFragmentBytes r.last

/-- A server: its answer to the `n`-th request it receives carries the request's xid, and is
otherwise arbitrary. -/
structure RpcServer where
  answer : ℕ → Bytes → FramedReply
  echoes_xid : ∀ n msg, (answer n msg).record.take 4 = msg.take 4

/-- The server's side of one connection. -/
structure ServerState where
  /-- Received bytes that do not make up a whole request yet. -/
  pending : Bytes
  /-- The requests received so far, each with its answer. -/
  answered : List (Bytes × FramedReply)

/-- The first record of a byte stream and what follows it, if the record is complete. Every
fragment has at least its four mark bytes, so the length of the stream is fuel enough. -/
def takeRecord : ℕ → Bytes → Option (Bytes × Bytes)
  | 0, _ => none
  | fuel + 1, buf =>
    let mark := beVal (buf.take 4)
    let len := mark % 2 ^ 31
    let body := buf.drop 4
    if buf.length < 4 ∨ body.length < len then none
    else if 2 ^ 31 ≤ mark then some (body.take len, body.drop len)
    else (takeRecord fuel (body.drop len)).map fun r => (body.take len ++ r.1, r.2)

namespace RpcServer

/-- Answer every complete request in the buffer. -/
def serveAll (srv : RpcServer) : ℕ → ServerState → ServerState × Bytes
  | 0, st => (st, [])
  | fuel + 1, st =>
    match takeRecord st.pending.length st.pending with
    | none => (st, [])
    | some (msg, rest) =>
      let reply := srv.answer st.answered.length msg
      let r := srv.serveAll fuel ⟨rest, st.answered ++ [(msg, reply)]⟩
      (r.1, reply.bytes ++ r.2)

/-- The bytes of one `send()` arrive. -/
def receive (srv : RpcServer) (st : ServerState) (chunk : Bytes) : ServerState × Bytes :=
  let pending := st.pending ++ chunk
  srv.serveAll pending.length ⟨pending, st.answered⟩

end RpcServer

/-! ### Runs of calls -/

/-- A call as its caller makes it, after `set_auth_sys` or `clear_auth`, and the results that its
`send()` and `recv()` calls will have. -/
structure RpcCall where
  auth : Option AuthSys
  prog : UInt32
  vers : UInt32
  proc : UInt32
  args : Bytes
  results : List (Option ℕ)

/-- A finished call: its request, what it came to, and what the server had answered by then. -/
structure CallRecord where
  request : RpcRequest
  result : Except Exn Bytes
  answered : List (Bytes × FramedReply)

/-- One call: `none` if it waits for ever. -/
def performCall (srv : RpcServer) (c : RpcCall) (rpc : TcpRpcClient) (s : Socket ServerState) :
    Option (CallRecord × TcpRpcClient × Socket ServerState) :=
  let rpc := { rpc with auth_sys_ := c.auth }
  match (TcpRpcClient.call c.prog c.vers c.proc c.args rpc).run (socketServe srv.receive)
      { s with results := c.results } with
  | (some (result, rpc'), s') =>
    some (⟨rpc.request c.prog c.vers c.proc c.args, result, s'.peer.answered⟩, rpc', s')
  | (none, _) => none

/-- A run of calls on one client. The caller catches every exception and goes on; a call that
waits for ever ends the run. -/
def runCalls (srv : RpcServer) :
    List RpcCall → TcpRpcClient → Socket ServerState → List CallRecord
  | [], _, _ => []
  | c :: cs, rpc, s =>
    match performCall srv c rpc s with
    | some (r, rpc', s') => r :: runCalls srv cs rpc' s'
    | none => []

/-- A freshly connected socket. -/
def Socket.fresh : Socket ServerState := ⟨⟨[], []⟩, [], []⟩

/-- A call that returns a value returns the result in the server's answer to this very request,
which carries the request's xid and is the last thing the server has answered. -/
def CallRecord.Matched (r : CallRecord) : Prop :=
  ∀ body, r.result = .ok body →
    ∃ reply : FramedReply, r.answered.getLast? = some (r.request.message, reply) ∧
      reply.record.take 4 = word r.request.xid ∧ parseReply reply.record = .ok body

namespace RpcCall

/-- The CALL message fits the 31-bit length of a record mark. -/
def Fits (c : RpcCall) : Prop :=
  ∀ xid, (buildCallMessage xid c.prog c.vers c.proc c.args c.auth).length < 2 ^ 31

/-- Every system call of the call succeeds, or the first `send()` fails, with no byte out. -/
def Clean (c : RpcCall) : Prop :=
  c.results.head? = some none ∨ none ∉ c.results

end RpcCall

/-! ### Record marks -/

theorem length_lastFragmentBytes (msg : Bytes) :
    (lastFragmentBytes msg).length = 4 + msg.length := by
  simp [lastFragmentBytes]

theorem lastFragmentBytes_ne_nil (msg : Bytes) : lastFragmentBytes msg ≠ [] := by
  intro h
  have hlen := length_lastFragmentBytes msg
  rw [h, List.length_nil] at hlen
  omega

theorem assemble32_word (v : UInt32) : assemble32 (word v) = v := by
  have hlt := v.toNat_lt
  rw [assemble32_eq _ (length_word v), word, beVal_beBytes, Nat.mod_eq_of_lt (by omega),
    UInt32.ofNat_toNat]

/-- The length bits of a mark. -/
theorem toNat_and_lengthMask (v : UInt32) : (v &&& 0x7FFFFFFF).toNat = v.toNat % 2 ^ 31 := by
  rw [UInt32.toNat_and]
  exact Nat.and_two_pow_sub_one_eq_mod v.toNat 31

/-- The flag bit of a mark. -/
theorem and_flag_eq_zero_iff (v : UInt32) : v &&& 0x80000000 = 0 ↔ v.toNat < 2 ^ 31 := by
  have hv := v.toNat_lt
  have hand : (v &&& 0x80000000).toNat = (v.toNat.testBit 31).toNat * 2 ^ 31 := by
    rw [UInt32.toNat_and]
    exact Nat.and_two_pow v.toNat 31
  rw [← UInt32.toNat_inj, hand, Nat.testBit_eq_decide_div_mod_eq]
  simp
  omega

/-! ### The server's reassembly -/

theorem takeRecord_lastFragment {msg rest : Bytes} (h : msg.length < 2 ^ 31) (fuel : ℕ) :
    takeRecord (fuel + 1) (lastFragmentBytes msg ++ rest) = some (msg, rest) := by
  -- the mark read back: flag and length
  have hmark : beVal (word (UInt32.ofNat (2 ^ 31 + msg.length))) = 2 ^ 31 + msg.length := by
    rw [word, beVal_beBytes, toNat_ofNat_of_lt (by omega), Nat.mod_eq_of_lt (by omega)]
  have htake : (lastFragmentBytes msg ++ rest).take 4 = word (UInt32.ofNat (2 ^ 31 + msg.length)) := by
    rw [lastFragmentBytes, List.append_assoc]
    exact List.take_left' (length_word _)
  have hdrop : (lastFragmentBytes msg ++ rest).drop 4 = msg ++ rest := by
    rw [lastFragmentBytes, List.append_assoc]
    exact List.drop_left' (length_word _)
  have hmod : (2 ^ 31 + msg.length) % 2 ^ 31 = msg.length := by omega
  have hlong : ¬ ((lastFragmentBytes msg ++ rest).length < 4 ∨ (msg ++ rest).length < msg.length) := by
    rw [List.length_append, length_lastFragmentBytes, List.length_append]
    omega
  simp only [takeRecord, htake, hmark, hdrop, hmod]
  rw [if_neg hlong, if_pos (by omega), List.take_left' rfl, List.drop_left' rfl]

/-- A proper prefix of a request is no request. -/
theorem takeRecord_incomplete {msg pre tail : Bytes} (h : msg.length < 2 ^ 31)
    (hpre : pre ++ tail = lastFragmentBytes msg) (htail : tail ≠ []) (fuel : ℕ) :
    takeRecord fuel pre = none := by
  cases fuel with
  | zero => rfl
  | succ fuel =>
    have hlen : pre.length + tail.length = 4 + msg.length := by
      rw [← List.length_append, hpre, length_lastFragmentBytes]
    have htpos : 0 < tail.length := List.length_pos_iff.mpr htail
    unfold takeRecord
    -- either the mark itself is cut short, or the data that it announces
    by_cases hshort : pre.length < 4
    · rw [if_pos (Or.inl hshort)]
    · have htake : pre.take 4 = word (UInt32.ofNat (2 ^ 31 + msg.length)) := by
        have := congrArg (List.take 4) hpre
        rw [List.take_append_of_le_length (by omega), lastFragmentBytes,
          List.take_left' (length_word _)] at this
        exact this
      have hmark : beVal (pre.take 4) = 2 ^ 31 + msg.length := by
        rw [htake, word, beVal_beBytes, toNat_ofNat_of_lt (by omega), Nat.mod_eq_of_lt (by omega)]
      have hmod : (2 ^ 31 + msg.length) % 2 ^ 31 = msg.length := by omega
      simp only [hmark, hmod]
      rw [if_pos (Or.inr (by rw [List.length_drop]; omega))]

theorem takeRecord_nil (fuel : ℕ) : takeRecord fuel [] = none := by
  cases fuel <;> simp [takeRecord]

variable {srv : RpcServer}

theorem serveAll_none {st : ServerState} (h : takeRecord st.pending.length st.pending = none)
    (fuel : ℕ) : srv.serveAll fuel st = (st, []) := by
  cases fuel with
  | zero => rfl
  | succ fuel => simp only [RpcServer.serveAll, h]

theorem serveAll_some {st : ServerState} {msg rest : Bytes}
    (h : takeRecord st.pending.length st.pending = some (msg, rest)) (fuel : ℕ) :
    srv.serveAll (fuel + 1) st =
      ((srv.serveAll fuel
          ⟨rest, st.answered ++ [(msg, srv.answer st.answered.length msg)]⟩).1,
        (srv.answer st.answered.length msg).bytes ++ (srv.serveAll fuel
          ⟨rest, st.answered ++ [(msg, srv.answer st.answered.length msg)]⟩).2) := by
  simp only [RpcServer.serveAll, h]

/-- The bytes that complete a request are answered once. -/
theorem receive_complete {st : ServerState} {msg chunk : Bytes} (h : msg.length < 2 ^ 31)
    (hc : st.pending ++ chunk = lastFragmentBytes msg) :
    srv.receive st chunk =
      (⟨[], st.answered ++ [(msg, srv.answer st.answered.length msg)]⟩,
        (srv.answer st.answered.length msg).bytes) := by
  obtain ⟨fuel, hfuel⟩ : ∃ fuel, (st.pending ++ chunk).length = fuel + 1 := by
    rw [hc, length_lastFragmentBytes]
    exact ⟨3 + msg.length, by omega⟩
  -- the one record is taken, and nothing is left for another
  have htake : takeRecord (st.pending ++ chunk).length (st.pending ++ chunk) = some (msg, []) := by
    have hrecord : takeRecord (fuel + 1) (lastFragmentBytes msg ++ []) = some (msg, []) :=
      takeRecord_lastFragment h fuel
    rw [List.append_nil] at hrecord
    rw [hfuel, hc, hrecord]
  change srv.serveAll (st.pending ++ chunk).length ⟨st.pending ++ chunk, st.answered⟩ = _
  rw [hfuel, serveAll_some htake, serveAll_none (takeRecord_nil _), List.append_nil]

/-- Bytes that leave the request incomplete are kept. -/
theorem receive_incomplete {st : ServerState} {msg chunk tail : Bytes} (h : msg.length < 2 ^ 31)
    (hc : st.pending ++ chunk ++ tail = lastFragmentBytes msg) (htail : tail ≠ []) :
    srv.receive st chunk = (⟨st.pending ++ chunk, st.answered⟩, []) :=
  serveAll_none (takeRecord_incomplete h hc htail _) _

/-! ### One exchange -/

/-- Sending the rest of a request completes it at the server, however `send()` cuts it. -/
theorem sendLoop_ok {msg : Bytes} (h : msg.length < 2 ^ 31) :
    ∀ {fuel : ℕ} {data : Bytes} {s s' : Socket ServerState}, data.length ≤ fuel → data ≠ [] →
      s.peer.pending ++ data = lastFragmentBytes msg →
      sendLoop srv.receive fuel data s = (some (.ok ()), s') →
        s'.peer = ⟨[], s.peer.answered ++ [(msg, srv.answer s.peer.answered.length msg)]⟩ ∧
          s'.inbox = s.inbox ++ (srv.answer s.peer.answered.length msg).bytes
  | 0, data, s, s', hf, hne, _, _ => absurd (List.length_eq_zero_iff.mp (Nat.le_zero.mp hf)) hne
  | fuel + 1, data, s, s', hf, hne, hpre, hrun => by
    unfold sendLoop at hrun
    rw [if_neg hne] at hrun
    obtain ⟨r, s₁, hsend, hrest⟩ := SockM.bind_ok.mp hrun
    cases r with
    | none => exact absurd hrest SockM.throw_ok
    | some k =>
      replace hrest : sendLoop srv.receive fuel (data.drop k) s₁ = (some (.ok ()), s') := hrest
      have hpos : 0 < data.length := List.length_pos_iff.mpr hne
      -- the first `k` bytes are out
      obtain ⟨hk, hkle, hpeer, hinbox⟩ : 1 ≤ k ∧ k ≤ data.length ∧
          s₁.peer = (srv.receive s.peer (data.take k)).1 ∧
          s₁.inbox = s.inbox ++ (srv.receive s.peer (data.take k)).2 := by
        unfold sysSend at hsend
        split at hsend
        · cases hsend
        · cases hsend
        · cases hsend
          exact ⟨transfer_pos _ _, transfer_le hpos, rfl, rfl⟩
      have hsplit : data.take k ++ data.drop k = data := List.take_append_drop k data
      by_cases hdone : data.drop k = []
      · have hall : data.take k = data := by rwa [hdone, List.append_nil] at hsplit
        rw [hall, receive_complete h hpre] at hpeer hinbox
        have hs : s₁ = s' := by
          rw [hdone] at hrest
          cases fuel with
          | zero => exact (SockM.pure_ok.mp hrest).2
          | succ fuel =>
            unfold sendLoop at hrest
            exact (SockM.pure_ok.mp hrest).2
        subst hs
        exact ⟨hpeer, hinbox⟩
      · have hassoc : s.peer.pending ++ data.take k ++ data.drop k = lastFragmentBytes msg := by
          rw [List.append_assoc, hsplit, hpre]
        rw [receive_incomplete h hassoc hdone] at hpeer hinbox
        have hrec := sendLoop_ok h (by rw [List.length_drop]; omega) hdone
          (by rw [hpeer]; exact hassoc) hrest
        rw [hpeer, hinbox, List.append_nil] at hrec
        exact hrec

/-- Reading the fragments of a reply. Of the stream, `tail` is what the peer has not written yet: a
read that has come to its end has not waited for it. -/
theorem recvFragments_ok {τ : Type} {rest tail : Bytes} {reply : FramedReply} :
    ∀ {fuel : ℕ} {frags : List Bytes} {record r : Bytes} {s s' : Socket τ},
      (∀ f ∈ frags, f.length < 2 ^ 31) →
      s.inbox ++ tail = frags.flatMap fragmentBytes ++ (lastFragmentBytes reply.last ++ rest) →
      recvFragments fuel record s = (some (.ok r), s') →
        r = record ++ (frags.flatten ++ reply.last) ∧ s'.inbox ++ tail = rest ∧ s'.peer = s.peer
  | 0, _, _, _, _, _, _, _, h => by cases h
  | fuel + 1, frags, record, r, s, s', hshort, hin, h => by
    unfold recvFragments at h
    -- what was read are a mark and as many bytes as it says; the stream says which ones
    obtain ⟨markBuf, s₁, hmark, h₁⟩ := SockM.bind_ok.mp h
    obtain ⟨data, s₂, hdata, h₂⟩ := SockM.bind_ok.mp h₁
    obtain ⟨hin₁, hlen₁, hpeer₁⟩ := recvExactly_ok hmark
    obtain ⟨hin₂, hlen₂, hpeer₂⟩ := recvExactly_ok hdata
    cases frags with
    | nil =>
      -- only the last fragment is left
      have hlast := reply.last_short
      rw [List.flatMap_nil, List.nil_append, lastFragmentBytes, List.append_assoc, hin₁,
        List.append_assoc] at hin
      obtain ⟨rfl, hrest₁⟩ := List.append_inj hin (by rw [hlen₁, length_word])
      rw [assemble32_word, toNat_and_lengthMask, toNat_ofNat_of_lt (by omega)] at hlen₂
      rw [hin₂, List.append_assoc] at hrest₁
      obtain ⟨rfl, rfl⟩ := List.append_inj hrest₁ (by omega)
      have hflag : UInt32.ofNat (2 ^ 31 + reply.last.length) &&& 0x80000000 ≠ 0 := by
        rw [Ne, and_flag_eq_zero_iff, toNat_ofNat_of_lt (by omega)]
        omega
      rw [assemble32_word, if_pos hflag] at h₂
      obtain ⟨rfl, rfl⟩ := SockM.pure_ok.mp h₂
      exact ⟨rfl, rfl, hpeer₂.trans hpeer₁⟩
    | cons f frags =>
      -- another fragment comes first, and its mark has no flag
      have hf := hshort f List.mem_cons_self
      rw [List.flatMap_cons, fragmentBytes, List.append_assoc, List.append_assoc, hin₁,
        List.append_assoc] at hin
      obtain ⟨rfl, hrest₁⟩ := List.append_inj hin (by rw [hlen₁, length_word])
      rw [assemble32_word, toNat_and_lengthMask, toNat_ofNat_of_lt (by omega)] at hlen₂
      rw [hin₂, List.append_assoc] at hrest₁
      obtain ⟨rfl, hrest₂⟩ := List.append_inj hrest₁ (by omega)
      have hflag : ¬ UInt32.ofNat data.length &&& 0x80000000 ≠ 0 := by
        rw [not_not, and_flag_eq_zero_iff, toNat_ofNat_of_lt (by omega)]
        exact hf
      rw [assemble32_word, if_neg hflag] at h₂
      obtain ⟨rfl, hin', hpeer'⟩ :=
        recvFragments_ok (fun g hg => hshort g (List.mem_cons_of_mem _ hg)) hrest₂ h₂
      exact ⟨by simp, hin', hpeer'.trans (hpeer₂.trans hpeer₁)⟩

/-- The client has read everything, the server is at a request boundary. -/
structure Synced (s : Socket ServerState) : Prop where
  inbox : s.inbox = []
  pending : s.peer.pending = []

/-- **One completed exchange.** From `Synced`, the record that comes back is the server's answer
to this request, and the connection is `Synced` again. -/
theorem exchange_ok {s s' : Socket ServerState} {msg record : Bytes} (hs : Synced s)
    (h : msg.length < 2 ^ 31)
    (hrun : exchange srv.receive (addRecordMark msg) s = (some (.ok record), s')) :
    Synced s' ∧ record = (srv.answer s.peer.answered.length msg).record ∧
      s'.peer.answered
        = s.peer.answered ++ [(msg, srv.answer s.peer.answered.length msg)] := by
  rw [addRecordMark_eq h] at hrun
  obtain ⟨u, s₁, hsend, hrecv⟩ := SockM.bind_ok.mp hrun
  obtain ⟨hpeer, hinbox⟩ := sendLoop_ok h le_rfl (lastFragmentBytes_ne_nil msg)
    (by rw [hs.pending, List.nil_append]) hsend
  rw [hs.inbox, List.nil_append, FramedReply.bytes] at hinbox
  -- the stream holds the answer to this request and nothing else
  have hstream : s₁.inbox ++ [] = (srv.answer s.peer.answered.length msg).fragments.flatMap
      fragmentBytes ++ (lastFragmentBytes (srv.answer s.peer.answered.length msg).last ++ []) := by
    rw [hinbox, List.append_nil, List.append_nil]
  obtain ⟨hrecord, hin, hpeer'⟩ := recvFragments_ok
    (srv.answer s.peer.answered.length msg).fragments_short hstream hrecv
  rw [hpeer] at hpeer'
  rw [List.append_nil] at hin
  exact ⟨⟨hin, by rw [hpeer']⟩, hrecord, by rw [hpeer']⟩

/-! ### Runs -/

/-- A call on a `Synced` connection whose message fits a record mark is matched. -/
theorem matched_of_synced {s s' : Socket ServerState} {q : RpcRequest} {received : Received}
    (hs : Synced s) (h : q.message.length < 2 ^ 31)
    (hrun : socketServe srv.receive s q = (some received, s')) :
    CallRecord.Matched ⟨q, received.bind parseReply, s'.peer.answered⟩ := by
  -- only a reply that was received has a body
  intro body hbody
  cases received with
  | error e => cases hbody
  | ok record =>
    obtain ⟨-, hrecord, hanswered⟩ := exchange_ok hs h hrun
    refine ⟨srv.answer s.peer.answered.length q.message, ?_, ?_, ?_⟩
    · rw [hanswered]
      exact List.getLast?_concat
    · rw [srv.echoes_xid]
      exact buildCallMessage_take_four _ _ _ _ _ _
    · rw [← hrecord]
      exact hbody

/-- A clean call leaves the connection `Synced`. -/
theorem synced_of_clean {s s' : Socket ServerState} {q : RpcRequest} {received : Received}
    (hs : Synced s) (h : q.message.length < 2 ^ 31)
    (hclean : s.results.head? = some none ∨ none ∉ s.results)
    (hrun : socketServe srv.receive s q = (some received, s')) : Synced s' := by
  rcases hclean with hhead | hsteady
  -- a first `send()` that fails has sent nothing
  · obtain ⟨rs, hrs⟩ := List.head?_eq_some_iff.mp hhead
    have hframed : q.framed ≠ [] := by
      rw [RpcRequest.framed, addRecordMark_eq h]
      exact lastFragmentBytes_ne_nil _
    unfold socketServe at hrun
    rw [exchange_send_failed hframed hrs] at hrun
    cases hrun
    exact ⟨hs.inbox, hs.pending⟩
  -- without failures the exchange is completed
  · obtain ⟨⟨record, rfl⟩, -⟩ := exchange_noThrow q.framed s s' received hsteady hrun
    exact (exchange_ok hs h hrun).1

/-- A call that ends is an exchange on the socket. -/
theorem performCall_some {c : RpcCall} {rpc rpc' : TcpRpcClient} {s s' : Socket ServerState}
    {r : CallRecord} (h : performCall srv c rpc s = some (r, rpc', s')) :
    ∃ received,
      socketServe srv.receive { s with results := c.results } r.request = (some received, s') ∧
        r = ⟨r.request, received.bind parseReply, s'.peer.answered⟩ ∧
        (c.Fits → r.request.message.length < 2 ^ 31) := by
  unfold performCall at h
  simp only [TcpRpcClient.call, Prog.run] at h
  -- the call ends only if the exchange does
  rcases hserve : socketServe srv.receive { s with results := c.results }
    (({ rpc with auth_sys_ := c.auth } : TcpRpcClient).request c.prog c.vers c.proc c.args)
    with ⟨_ | received, s₁⟩
  · rw [hserve] at h
    cases h
  · rw [hserve] at h
    simp only [Option.some.injEq, Prod.mk.injEq] at h
    obtain ⟨rfl, -, rfl⟩ := h
    exact ⟨received, hserve, rfl, fun hfits => hfits rpc.xid_⟩

theorem runCalls_matched {calls : List RpcCall} :
    ∀ {k : ℕ} {rpc : TcpRpcClient} {s : Socket ServerState}, Synced s →
      (∀ c ∈ calls.take (k + 1), c.Fits) → (∀ c ∈ calls.take k, c.Clean) →
      ∀ r, (runCalls srv calls rpc s)[k]? = some r → r.Matched := by
  induction calls with
  | nil =>
    intro k rpc s _ _ _ r hr
    simp [runCalls] at hr
  | cons c cs ih =>
    intro k rpc s hs hfits hclean r hr
    have hs₀ : Synced { s with results := c.results } := ⟨hs.inbox, hs.pending⟩
    have hfit : c.Fits := hfits c (by rw [List.take_succ_cons]; exact List.mem_cons_self)
    cases hcall : performCall srv c rpc s with
    | none =>
      rw [runCalls, hcall] at hr
      cases hr
    | some next =>
      obtain ⟨r₀, rpc', s'⟩ := next
      obtain ⟨received, hserve, hr₀, hmessage⟩ := performCall_some hcall
      rw [runCalls, hcall] at hr
      -- the first call is matched, and the clean ones leave the connection synced for the next
      cases k with
      | zero =>
        cases hr
        rw [hr₀]
        exact matched_of_synced hs₀ (hmessage hfit) hserve
      | succ k =>
        rw [List.take_succ_cons] at hfits hclean
        have hs' : Synced s' :=
          synced_of_clean hs₀ (hmessage hfit) (hclean c List.mem_cons_self) hserve
        exact ih hs' (fun d hd => hfits d (List.mem_cons_of_mem c hd))
          (fun d hd => hclean d (List.mem_cons_of_mem c hd)) r hr

/-- **Reply matching.** A call that returns a value returns the server's answer to its own request,
as long as every earlier call on the client was clean and the messages fit a record mark. -/
theorem reply_matching (srv : RpcServer) (port : UInt16) (calls : List RpcCall) (k : ℕ)
    (hfits : ∀ c ∈ calls.take (k + 1), c.Fits) (hclean : ∀ c ∈ calls.take k, c.Clean) :
    ∀ r, (runCalls srv calls (TcpRpcClient.connect port) Socket.fresh)[k]? = some r → r.Matched :=
  runCalls_matched ⟨rfl, rfl⟩ hfits hclean

/-! ### A stale reply -/

/-- The xid of the request, an accepted header and the one-byte result `n`; a message with no xid
is sent back as it came. -/
def countingRecord (n : ℕ) (msg : Bytes) : Bytes :=
  if msg.length < 4 then msg
  else msg.take 4 ++ ((acceptedHeader 0 AUTH_NONE []).drop 4 ++ [UInt8.ofNat n])

/-- A server that answers its `n`-th request with the one-byte result `n`. -/
def countingServer : RpcServer where
  answer n msg :=
    { fragments := []
      last := countingRecord n msg
      fragments_short := by simp
      last_short := by
        have hheader : ((acceptedHeader 0 AUTH_NONE []).drop 4).length = 20 := by decide
        unfold countingRecord
        split
        · omega
        · rw [List.length_append, List.length_append, hheader, List.length_take,
            List.length_singleton]
          omega }
  echoes_xid n msg := by
    change (countingRecord n msg).take 4 = msg.take 4
    unfold countingRecord
    split
    · rfl
    · exact List.take_left' (by rw [List.length_take]; omega)

/-- A NULL call whose system calls have the given results. -/
def nullCall (results : List (Option ℕ)) : RpcCall := ⟨none, 100003, 4, 0, [], results⟩

/-- What a finished call returned, and what the last answer of the server holds. -/
def CallRecord.returnedAndAnswered (r : CallRecord) : Option Bytes × Option Bytes :=
  (r.result.toOption, r.answered.getLast?.bind fun a => (parseReply a.2.record).toOption)

/-- A matched call returns what the last answer of the server holds. -/
theorem CallRecord.Matched.agree {r : CallRecord} {body : Bytes} (h : r.Matched)
    (hbody : r.result.toOption = some body) : r.returnedAndAnswered.2 = some body := by
  obtain ⟨reply, hlast, -, hparse⟩ := h body (by
    cases hresult : r.result with
    | ok b => rw [hresult] at hbody; cases hbody; rfl
    | error e => rw [hresult] at hbody; cases hbody)
  change (r.answered.getLast?.bind fun a => (parseReply a.2.record).toOption) = some body
  rw [hlast, Option.bind_some, hparse]
  rfl

/-- The first call fails in its first `recv()`, after the request is out. The second call then
returns the answer to the first. -/
theorem stale_reply :
    ¬ ∀ (srv : RpcServer) (port : UInt16) (calls : List RpcCall) (k : ℕ) (r : CallRecord),
      (runCalls srv calls (TcpRpcClient.connect port) Socket.fresh)[k]? = some r → r.Matched := by
  intro hclaim
  have hrun : ((runCalls countingServer
      [nullCall [some 1000, none], nullCall [some 1000, some 4, some 1000]]
      (TcpRpcClient.connect 2049) Socket.fresh)[1]?.map CallRecord.returnedAndAnswered)
        = some (some [0], some [1]) := by decide +kernel
  obtain ⟨r, hr, hvals⟩ := Option.map_eq_some_iff.mp hrun
  have hagree := (hclaim _ _ _ _ r hr).agree (congrArg Prod.fst hvals)
  rw [hvals] at hagree
  exact absurd hagree (by decide)

theorem nullCall_fits (results : List (Option ℕ)) : (nullCall results).Fits := by
  intro xid
  have hlen : (buildCallMessage xid 100003 4 0 [] none).length = 40 := by
    simp [buildCallMessage, putUint32_eq]
  change (buildCallMessage xid 100003 4 0 [] none).length < 2 ^ 31
  rw [hlen]
  norm_num

/-- After a call whose system calls all succeed, and one whose first `send()` fails, the third
call is matched. -/
theorem reply_matching_after_clean :
    ∃ r, (runCalls countingServer
        [nullCall [some 1000, some 4, some 1000], nullCall [none],
          nullCall [some 7, some 40, some 3, some 9, some 99]]
        (TcpRpcClient.connect 2049) Socket.fresh)[2]? = some r ∧
      r.returnedAndAnswered = (some [1], some [1]) ∧ r.Matched := by
  have hrun : ((runCalls countingServer
      [nullCall [some 1000, some 4, some 1000], nullCall [none],
          nullCall [some 7, some 40, some 3, some 9, some 99]]
      (TcpRpcClient.connect 2049) Socket.fresh)[2]?.map CallRecord.returnedAndAnswered)
        = some (some [1], some [1]) := by decide +kernel
  obtain ⟨r, hr, hvals⟩ := Option.map_eq_some_iff.mp hrun
  refine ⟨r, hr, hvals, reply_matching countingServer 2049 _ 2 ?_ ?_ r hr⟩
  · intro c hc
    obtain rfl | rfl | rfl : c = nullCall [some 1000, some 4, some 1000] ∨ c = nullCall [none] ∨
        c = nullCall [some 7, some 40, some 3, some 9, some 99] := by simpa using hc
    all_goals exact nullCall_fits _
  · intro c hc
    obtain rfl | rfl : c = nullCall [some 1000, some 4, some 1000] ∨ c = nullCall [none] := by
      simpa using hc
    · exact Or.inr (by decide)
    · exact Or.inl rfl

end NfsClient
