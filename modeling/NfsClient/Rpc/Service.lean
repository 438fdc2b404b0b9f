import NfsClient.Lib.Objects
import NfsClient.Rpc.Records

/-!
# A server with a state of its own

`RpcServer` answers by the number of the request. Here the answer depends on a state that the answers
change (`Service`), as it does in a server with files behind it. The server reassembles requests from
the bytes of single `send()` calls, however these are cut, and answers each complete one.

Between two calls a connection is `Idle`. A call takes it from there to `Idle` again, with the server
in the state that its answer left, and what is received is the record of that answer
(`exchange_ends`); it takes at most as many system calls as the two messages have bytes, and none of
them fails (`Socket.Steady`).
-/

namespace NfsClient

open Xdr Reader Interaction

variable {τ : Type}

/-! ### Services -/

/-- What a server answers to a message, and the state that it is in afterwards. -/
structure Service (τ : Type) where
  answer : τ → Bytes → FramedReply × τ

/-- The server's side of a connection. -/
structure ServiceConn (τ : Type) where
  /-- Received bytes that do not make up a whole request yet. -/
  pending : Bytes
  state : τ

namespace Service

/-- Answer every complete request in the buffer. -/
def serveAll (srv : Service τ) : ℕ → ServiceConn τ → ServiceConn τ × Bytes
  | 0, st => (st, [])
  | fuel + 1, st =>
    match takeRecord st.pending.length st.pending with
    | none => (st, [])
    | some (msg, rest) =>
      let reply := srv.answer st.state msg
      let r := srv.serveAll fuel ⟨rest, reply.2⟩
      (r.1, reply.1.bytes ++ r.2)

/-- The bytes of one `send()` arrive. -/
def receive (srv : Service τ) (st : ServiceConn τ) (chunk : Bytes) : ServiceConn τ × Bytes :=
  let pending := st.pending ++ chunk
  srv.serveAll pending.length ⟨pending, st.state⟩

variable {srv : Service τ} {st : ServiceConn τ} {msg chunk : Bytes}

theorem serveAll_none (h : takeRecord st.pending.length st.pending = none) (fuel : ℕ) :
    srv.serveAll fuel st = (st, []) := by
  cases fuel with
  | zero => rfl
  | succ fuel => simp only [serveAll, h]

/-- The bytes that complete a request are answered once. -/
theorem receive_complete (h : msg.length < 2 ^ 31)
    (hc : st.pending ++ chunk = lastFragmentBytes msg) :
    srv.receive st chunk =
      (⟨[], (srv.answer st.state msg).2⟩, (srv.answer st.state msg).1.bytes) := by
  obtain ⟨fuel, hfuel⟩ : ∃ fuel, (st.pending ++ chunk).length = fuel + 1 := by
    rw [hc, length_lastFragmentBytes]
    exact ⟨3 + msg.length, by omega⟩
  have htake : takeRecord (st.pending ++ chunk).length (st.pending ++ chunk) = some (msg, []) := by
    have hrecord : takeRecord (fuel + 1) (lastFragmentBytes msg ++ []) = some (msg, []) :=
      takeRecord_lastFragment h fuel
    rw [List.append_nil] at hrecord
    rw [hfuel, hc, hrecord]
  change srv.serveAll (st.pending ++ chunk).length ⟨st.pending ++ chunk, st.state⟩ = _
  rw [hfuel, serveAll]
  -- behind the one request nothing is left to take
  have hrest : srv.serveAll fuel ⟨[], (srv.answer st.state msg).2⟩ = _ :=
    serveAll_none (takeRecord_nil _) fuel
  simp only [htake, hrest, List.append_nil]

/-- Bytes that leave the request incomplete are kept. -/
theorem receive_incomplete {tail : Bytes} (h : msg.length < 2 ^ 31)
    (hc : st.pending ++ chunk ++ tail = lastFragmentBytes msg) (htail : tail ≠ []) :
    srv.receive st chunk = (⟨st.pending ++ chunk, st.state⟩, []) :=
  serveAll_none (takeRecord_incomplete h hc htail _) _

end Service

/-! ### Records in fragments -/

/-- The size of the fragments, of all but the last. -/
def fragmentSize : ℕ := 2 ^ 30

/-- The first `k` pieces of size `n`. -/
def pieces (n : ℕ) (bs : Bytes) (k : ℕ) : List Bytes :=
  (List.range k).map fun i => (bs.drop (i * n)).take n

theorem flatten_pieces (n : ℕ) (bs : Bytes) (k : ℕ) : (pieces n bs k).flatten = bs.take (k * n) := by
  induction k with
  | zero => rw [Nat.zero_mul]; rfl
  | succ k ih =>
    rw [pieces, List.range_succ, List.map_append, List.flatten_append, ← pieces, ih,
      Nat.succ_mul, List.take_add]
    simp

/-- A record of any size in fragments. -/
def FramedReply.ofRecord (record : Bytes) : FramedReply where
  fragments := pieces fragmentSize record (record.length / fragmentSize)
  last := record.drop (record.length / fragmentSize * fragmentSize)
  fragments_short := by
    intro f hf
    obtain ⟨i, -, rfl⟩ := List.mem_map.mp hf
    refine lt_of_le_of_lt (List.length_take_le _ _) ?_
    decide
  last_short := by
    have hmod := Nat.mod_lt record.length (show 0 < fragmentSize by decide)
    have hdiv := Nat.div_add_mod' record.length fragmentSize
    have hsize : fragmentSize < 2 ^ 31 := by decide
    rw [List.length_drop]
    omega

theorem FramedReply.record_ofRecord (record : Bytes) : (ofRecord record).record = record := by
  change (pieces _ _ _).flatten ++ record.drop _ = record
  rw [flatten_pieces, List.take_append_drop]

/-! ### Requests in pieces -/

/-- A peer that receives the chunks one after the other, and all that it writes meanwhile. -/
def feed (receive : τ → Bytes → τ × Bytes) : τ → List Bytes → τ × Bytes
  | t, [] => (t, [])
  | t, chunk :: chunks =>
    let r := receive t chunk
    let rest := feed receive r.1 chunks
    (rest.1, r.2 ++ rest.2)

/-- However a request is cut, it is answered once, when its last byte has arrived. -/
theorem Service.feed_eq {srv : Service τ} {msg : Bytes} (h : msg.length < 2 ^ 31) :
    ∀ {chunks : List Bytes} {st : ServiceConn τ}, [] ∉ chunks → chunks ≠ [] →
      st.pending ++ chunks.flatten = lastFragmentBytes msg →
      feed srv.receive st chunks =
        (⟨[], (srv.answer st.state msg).2⟩, (srv.answer st.state msg).1.bytes)
  | [], _, _, hne, _ => absurd rfl hne
  | [chunk], st, _, _, hc => by
    rw [List.flatten_cons, List.flatten_nil, List.append_nil] at hc
    simp only [feed, receive_complete h hc, List.append_nil]
  | chunk :: next :: chunks, st, hempty, _, hc => by
    rw [List.flatten_cons, ← List.append_assoc] at hc
    -- the chunks to come are not empty, so this one does not complete the request
    have hrest : (next :: chunks).flatten ≠ [] := by
      intro hnil
      have hnext := List.flatten_eq_nil_iff.mp hnil next List.mem_cons_self
      exact hempty (hnext ▸ List.mem_cons_of_mem chunk List.mem_cons_self)
    have hfeed : feed srv.receive ⟨st.pending ++ chunk, st.state⟩ (next :: chunks) = _ :=
      Service.feed_eq h (fun hmem => hempty (List.mem_cons_of_mem chunk hmem))
        (List.cons_ne_nil next chunks) hc
    rw [feed, receive_incomplete h hc hrest]
    exact hfeed

/-- A `sendAll` with enough results to come hands the data to the peer in non-empty chunks. -/
theorem sendLoop_feeds (receive : τ → Bytes → τ × Bytes) : ∀ {fuel : ℕ} {data : Bytes} {s : Socket τ},
    data.length ≤ fuel → data.length ≤ s.results.length → s.Steady →
    ∃ chunks s', chunks.flatten = data ∧ [] ∉ chunks ∧
      sendLoop receive fuel data s = (some (.ok ()), s') ∧
      s'.peer = (feed receive s.peer chunks).1 ∧
      s'.inbox = s.inbox ++ (feed receive s.peer chunks).2 ∧
      s.results.length ≤ s'.results.length + data.length ∧ s'.Steady
  | 0, data, s, hfuel, _, hs => by
    obtain rfl := List.length_eq_zero_iff.mp (Nat.le_zero.mp hfuel)
    exact ⟨[], s, rfl, List.not_mem_nil, rfl, rfl, (List.append_nil _).symm, Nat.le_refl _, hs⟩
  | fuel + 1, data, s, hfuel, hresults, hs => by
    unfold sendLoop
    by_cases hdata : data = []
    · subst hdata
      exact ⟨[], s, rfl, List.not_mem_nil, rfl, rfl, (List.append_nil _).symm, Nat.le_refl _, hs⟩
    · rw [if_neg hdata]
      have hpos : 0 < data.length := List.length_pos_iff.mpr hdata
      cases hrs : s.results with
      | nil =>
        rw [hrs, List.length_nil] at hresults
        exact absurd hresults (by omega)
      | cons r rs =>
        cases r with
        | none => exact absurd (hrs ▸ List.mem_cons_self) hs
        | some n =>
          let k := transfer n data.length
          let s₁ : Socket τ := ⟨(receive s.peer (data.take k)).1,
            s.inbox ++ (receive s.peer (data.take k)).2, rs⟩
          have hk : 1 ≤ k := transfer_pos n data.length
          have hkle : k ≤ data.length := transfer_le hpos
          have hsend : sysSend receive data s = (some (.ok (some k)), s₁) := by
            unfold sysSend
            rw [hrs]
          have hs₁ : s₁.Steady := (sysSend_steady hs hsend).2
          rw [hrs, List.length_cons] at hresults
          have hfuel' : (data.drop k).length ≤ fuel := by
            rw [List.length_drop]
            omega
          have hresults' : (data.drop k).length ≤ s₁.results.length := by
            rw [List.length_drop]
            change _ ≤ rs.length
            omega
          obtain ⟨chunks, s', hflat, hempty, hrun, hpeer, hinbox, hcount, hs'⟩ :=
            sendLoop_feeds receive hfuel' hresults' hs₁
          -- one result was used for the first `k` bytes
          refine ⟨data.take k :: chunks, s', ?_, ?_, ?_, hpeer, ?_, ?_, hs'⟩
          · rw [List.flatten_cons, hflat, List.take_append_drop]
          · intro hmem
            rcases List.mem_cons.mp hmem with hnil | hmem
            · have hlen := congrArg List.length hnil
              rw [List.length_nil, List.length_take] at hlen
              omega
            · exact hempty hmem
          · rw [SockM.bind_of_ok hsend]
            exact hrun
          · rw [hinbox]
            exact List.append_assoc _ _ _
          · have hcount : rs.length ≤ s'.results.length + (data.drop k).length := hcount
            rw [List.length_drop] at hcount
            rw [List.length_cons]
            omega

/-! ### What receiving costs -/

/-- A computation that only receives spends at most one result for each byte that it takes. -/
def SockM.Thrifty {α : Type} (m : SockM τ α) : Prop :=
  ∀ (s s' : Socket τ) (a : α), m s = (some (.ok a), s') →
    s.results.length + s'.inbox.length ≤ s'.results.length + s.inbox.length

namespace SockM

variable {α β : Type}

theorem Thrifty.pure (a : α) : Thrifty (Pure.pure a : SockM τ α) := by
  intro s s' b h
  obtain ⟨-, rfl⟩ := pure_ok.mp h
  exact Nat.le_refl _

theorem Thrifty.throw (e : Exn) : Thrifty (throw e : SockM τ α) :=
  fun _ _ _ h => absurd h throw_ok

theorem Thrifty.bind {m : SockM τ α} {f : α → SockM τ β} (hm : Thrifty m) (hf : ∀ a, Thrifty (f a)) :
    Thrifty (m >>= f) := by
  intro s s' b h
  obtain ⟨a, s₁, h₁, h₂⟩ := bind_ok.mp h
  have hcost₁ := hm s s₁ a h₁
  have hcost₂ := hf a s₁ s' b h₂
  omega

end SockM

open SockM

/-- A round of the loop costs one result, and takes at least one byte. -/
theorem recvLoop_thrifty (failure : Exn) :
    ∀ (fuel want : ℕ), Thrifty (recvLoop failure fuel want : SockM τ Bytes)
  | 0, _ => Thrifty.pure []
  | fuel + 1, want => by
    unfold recvLoop
    by_cases hwant : want = 0
    · rw [if_pos hwant]
      exact Thrifty.pure []
    · rw [if_neg hwant]
      intro s s' bs h
      obtain ⟨r, s₁, h₁, h₂⟩ := SockM.bind_ok.mp h
      cases r with
      | none => exact absurd h₂ SockM.throw_ok
      | some chunk =>
        obtain ⟨hsplit, hpos, -, -⟩ := sysRecv_some (by omega) h₁
        have hrest : Thrifty (do
            let rest ← recvLoop failure fuel (want - chunk.length)
            return chunk ++ rest : SockM τ Bytes) :=
          (recvLoop_thrifty failure fuel _).bind fun _ => Thrifty.pure _
        have hcost := hrest s₁ s' bs h₂
        have hone : s.results.length = s₁.results.length + 1 := by
          unfold sysRecv at h₁
          split at h₁
          · cases h₁
          · cases h₁
          · next n rs hrs =>
            split at h₁
            · cases h₁
            · cases h₁
              rw [hrs, List.length_cons]
        rw [hsplit, List.length_append]
        omega

theorem recvFragments_thrifty :
    ∀ (fuel : ℕ) (record : Bytes), Thrifty (recvFragments fuel record : SockM τ Bytes)
  | 0, _ => fun _ _ _ h => by cases h
  | fuel + 1, record => by
    unfold recvFragments
    refine (recvLoop_thrifty _ 4 4).bind fun markBuf => ?_
    refine (recvLoop_thrifty _ _ _).bind fun data => ?_
    split
    · exact Thrifty.pure _
    · exact recvFragments_thrifty fuel _

/-! ### One call -/

/-- A connection between calls: nothing is under way in either direction, and no system call is going
to fail. -/
structure Idle (t : τ) (s : Socket (ServiceConn τ)) : Prop where
  inbox : s.inbox = []
  peer : s.peer = ⟨[], t⟩
  steady : s.Steady

/-- The number of system calls that a connection has left. -/
def callsLeft (s : Socket τ) : ℕ := s.results.length

section

variable {srv : Service τ}

/-- **One exchange.** The record that comes back is the server's answer, however the system calls cut
the two messages; it takes no more of them than the messages have bytes. -/
theorem exchange_ends {t : τ} {msg : Bytes} (h : msg.length < 2 ^ 31) {s : Socket (ServiceConn τ)}
    (hs : Idle t s)
    (hresults : (addRecordMark msg).length + (srv.answer t msg).1.bytes.length ≤ callsLeft s) :
    ∃ s', exchange srv.receive (addRecordMark msg) s
        = (some (.ok (srv.answer t msg).1.record), s') ∧
      Idle (srv.answer t msg).2 s' ∧
      callsLeft s ≤ callsLeft s' + ((addRecordMark msg).length + (srv.answer t msg).1.bytes.length) := by
  unfold callsLeft at *
  have hmark : addRecordMark msg = lastFragmentBytes msg := addRecordMark_eq h
  rw [hmark] at hresults ⊢
  obtain ⟨chunks, s₁, hflat, hempty, hsend, hpeer₁, hinbox₁, hcount₁, hs₁⟩ :=
    sendLoop_feeds srv.receive (le_refl (lastFragmentBytes msg).length) (by omega) hs.steady
  -- the request is out, and its answer is in the stream
  have hchunks : chunks ≠ [] := by
    rintro rfl
    exact lastFragmentBytes_ne_nil msg hflat.symm
  have hfeed : feed srv.receive s.peer chunks =
      (⟨[], (srv.answer t msg).2⟩, (srv.answer t msg).1.bytes) := by
    rw [hs.peer]
    exact Service.feed_eq h hempty hchunks hflat
  rw [hfeed] at hpeer₁ hinbox₁
  replace hinbox₁ : s₁.inbox = (srv.answer t msg).1.bytes := by
    rw [hinbox₁, hs.inbox, List.nil_append]
  have hstream : s₁.inbox = (srv.answer t msg).1.bytes ++ [] := by rw [hinbox₁, List.append_nil]
  obtain ⟨s', hrecv, hinbox', hpeer'⟩ := recvRecord_ends hstream (by omega) hs₁
  have hcost := recvFragments_thrifty _ _ _ _ _ hrecv
  rw [hinbox₁, hinbox', List.length_nil] at hcost
  refine ⟨s', ?_, ⟨hinbox', hpeer'.trans hpeer₁, ?_⟩, by omega⟩
  · exact (SockM.bind_of_ok hsend).trans hrecv
  · exact (recvRecord_noThrow s₁ s' _ hs₁ hrecv).2

/-- **One request.** A program that sends it and ends on the response ends on the server's record. -/
theorem request_ends {α : Type} {q : RpcRequest} (h : q.message.length < 2 ^ 31) (f : Received → α)
    (t : τ) : ∃ n, (Prog.call q fun r => .done (f r)).Ends (socketServe srv.receive) Idle callsLeft n t
      (f (.ok (srv.answer t q.message).1.record)) (srv.answer t q.message).2 := by
  refine ⟨(addRecordMark q.message).length + (srv.answer t q.message).1.bytes.length, ?_⟩
  intro s hs hbudget
  obtain ⟨s', hrun, hs', hspent⟩ := exchange_ends h hs hbudget
  refine ⟨s', ?_, hs', hspent⟩
  have hserve : socketServe srv.receive s q = (some (.ok (srv.answer t q.message).1.record), s') := hrun
  simp only [Prog.run, hserve]

/-- **Callers are served.** On a new connection a caller of transparent methods has the dialogue that it
would have with the object at hand, as soon as the connection has had enough system calls and whatever
part of the bytes each of them has transferred. -/
theorem served_of_transparent {M C A : Type} {V : M → Type} {obj : Object M V A}
    {perform : (m : M) → C → Prog RpcRequest Received (V m × C)} {rel : A → C → τ → Prop}
    {ok : M → A → Prop}
    (h : Transparent (socketServe srv.receive) Idle callsLeft obj perform rel ok)
    (caller : Strategy M V) {a : A} {c : C} {t : τ} (hrel : rel a c t)
    (hok : caller.Respects obj ok a) :
    ∃ n, ∀ results : List (Option ℕ), none ∉ results → n ≤ results.length →
      ∃ c' t' s', (caller.dialogue perform c).run (socketServe srv.receive) ⟨⟨[], t⟩, [], results⟩
          = (some ((caller.direct obj a).1, c'), s') ∧
        Idle t' s' ∧ rel (caller.direct obj a).2 c' t' := by
  obtain ⟨n, c', t', hends, hrel'⟩ := Strategy.dialogue_ends h caller hrel hok
  refine ⟨n, fun results hsteady hn => ?_⟩
  obtain ⟨s', hrun, hidle, -⟩ := hends ⟨⟨[], t⟩, [], results⟩ ⟨rfl, rfl, hsteady⟩ hn
  exact ⟨c', t', s', hrun, hidle, hrel'⟩

end

end NfsClient
