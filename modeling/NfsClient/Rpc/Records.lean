import NfsClient.Rpc.ReplyMatching

/-!
# Records on the wire

What `sendAll` puts on the wire and what `recvRecord` takes from the stream, for every peer that
keeps what it receives and writes a given stream of bytes at a pace of its own (`Tape`). The stream
need not have anything to do with the requests.

* `records_delivered`: a message is sent once and in order, however `send()` cuts it; a record is
  received as it was cut into fragments, however `recv()` cuts these, and what follows it stays.
* `calls_in_step`: in a run of calls on one client in which no system call fails, the `k`-th call
  gets the `k`-th record of the stream. `recvRecord` takes the whole record before `parseReply` looks
  at it, so nothing in a record has an influence on what the next call receives.
-/

namespace NfsClient

open Xdr Reader Interaction

/-! ### Tapes -/

/-- A peer that keeps what it receives and writes a given stream. -/
structure Tape where
  /-- Received from the client. -/
  wire : Bytes
  /-- Not written yet. -/
  left : Bytes

/-- `pace` is how many bytes the peer writes when it has received these. -/
def Tape.receive (pace : Bytes → ℕ) (t : Tape) (chunk : Bytes) : Tape × Bytes :=
  let wire := t.wire ++ chunk
  let n := pace wire
  (⟨wire, t.left.drop n⟩, t.left.take n)

/-- What the client is going to read: what the peer has written and what it has not. -/
def Socket.stream (s : Socket Tape) : Bytes := s.inbox ++ s.peer.left

/-- A freshly connected socket. -/
def Socket.onTape (stream : Bytes) : Socket Tape := ⟨⟨[], stream⟩, [], []⟩

/-! ### Sending -/

section Send

variable (pace : Bytes → ℕ)

/-- A `send()` puts a non-empty part of the data on the wire. -/
theorem sysSend_tape {data : Bytes} {s : Socket Tape} {n : ℕ} {rs : List (Option ℕ)}
    (hdata : data ≠ []) (hrs : s.results = some n :: rs) :
    ∃ k s', sysSend (Tape.receive pace) data s = (some (.ok (some k)), s') ∧
      0 < k ∧ k ≤ data.length ∧ s'.peer.wire = s.peer.wire ++ data.take k ∧
      s'.stream = s.stream ∧ s'.results = rs := by
  have hpos : 0 < data.length := List.length_pos_iff.mpr hdata
  refine ⟨transfer n data.length, ⟨(Tape.receive pace s.peer (data.take (transfer n data.length))).1,
    s.inbox ++ (Tape.receive pace s.peer (data.take (transfer n data.length))).2, rs⟩, ?_,
    transfer_pos _ _, transfer_le hpos, rfl, ?_, rfl⟩
  · unfold sysSend
    rw [hrs]
  · change (s.inbox ++ s.peer.left.take _) ++ s.peer.left.drop _ = s.inbox ++ s.peer.left
    rw [List.append_assoc, List.take_append_drop]

/-- What is on the wire is the front of the message. Every `send()` takes at least one byte, so if
something is left then the results have come to their end. -/
theorem sendLoop_tape : ∀ {fuel : ℕ} {data : Bytes} {s : Socket Tape}, data.length ≤ fuel →
    s.Steady → ∃ sent left s', data = sent ++ left ∧
      sendLoop (Tape.receive pace) fuel data s = (if left = [] then some (.ok ()) else none, s') ∧
      s'.peer.wire = s.peer.wire ++ sent ∧ s'.stream = s.stream ∧
      (left ≠ [] → s.results.length ≤ sent.length)
  | 0, data, s, hfuel, _ => by
    obtain rfl := List.length_eq_zero_iff.mp (Nat.le_zero.mp hfuel)
    exact ⟨[], [], s, rfl, rfl, (List.append_nil _).symm, rfl, fun h => absurd rfl h⟩
  | fuel + 1, data, s, hfuel, hs => by
    unfold sendLoop
    by_cases hdata : data = []
    · subst hdata
      exact ⟨[], [], s, rfl, rfl, (List.append_nil _).symm, rfl, fun h => absurd rfl h⟩
    · rw [if_neg hdata]
      cases hrs : s.results with
      | nil =>
        -- no result is left, and the client waits
        have hwait : sysSend (Tape.receive pace) data s = (none, s) := by
          unfold sysSend
          rw [hrs]
        refine ⟨[], data, s, rfl, ?_, (List.append_nil _).symm, rfl, fun _ => Nat.le_refl 0⟩
        rw [SockM.bind_of_waiting hwait, if_neg hdata]
      | cons r rs =>
        cases r with
        | none => exact absurd (hrs ▸ List.mem_cons_self) hs
        | some n =>
          obtain ⟨k, s₁, hsend, hk, hkle, hwire, hstream, hresults⟩ :=
            sysSend_tape pace hdata hrs
          have hs₁ : s₁.Steady := (sysSend_steady hs hsend).2
          have hfuel' : (data.drop k).length ≤ fuel := by
            rw [List.length_drop]
            omega
          obtain ⟨sent, left, s', hsplit, hrun, hwire', hstream', hleft⟩ :=
            sendLoop_tape hfuel' hs₁
          -- `k` bytes went out in this round, and `sent` in those after it
          refine ⟨data.take k ++ sent, left, s', ?_, ?_, ?_, hstream'.trans hstream, ?_⟩
          · rw [List.append_assoc, ← hsplit, List.take_append_drop]
          · rw [SockM.bind_of_ok hsend]
            exact hrun
          · rw [hwire', hwire, List.append_assoc]
          · intro hne
            have hcount := hleft hne
            rw [hresults] at hcount
            rw [List.length_cons, List.length_append, List.length_take, Nat.min_eq_left hkle]
            omega

variable {pace} in
/-- A `sendAll` that returns has put the message on the wire. -/
theorem sendAll_tape {data : Bytes} {s s' : Socket Tape} (hs : s.Steady)
    (h : sendAll (Tape.receive pace) data s = (some (.ok ()), s')) :
    s'.peer.wire = s.peer.wire ++ data ∧ s'.stream = s.stream := by
  obtain ⟨sent, left, s₁, rfl, hrun, hwire, hstream, -⟩ :=
    sendLoop_tape pace (le_refl data.length) hs
  rw [sendAll, hrun] at h
  by_cases hleft : left = []
  · rw [if_pos hleft] at h
    cases h
    exact ⟨by rw [hwire, hleft, List.append_nil], hstream⟩
  · rw [if_neg hleft] at h
    cases h

end Send

/-! ### Receiving -/

section Receive

variable {τ : Type}

theorem sysRecv_ends (want : ℕ) {n : ℕ} {s : Socket τ} {rs : List (Option ℕ)} (hinbox : s.inbox ≠ [])
    (hrs : s.results = some n :: rs) :
    ∃ chunk s', sysRecv want s = (some (.ok (some chunk)), s') ∧ s'.results = rs := by
  refine ⟨s.inbox.take (transfer n (min want s.inbox.length)),
    { s with inbox := s.inbox.drop (transfer n (min want s.inbox.length)), results := rs }, ?_, rfl⟩
  unfold sysRecv
  simp only [hrs, if_neg hinbox]

/-- A read comes to its end if the bytes are there and `recv()` does not fail. -/
theorem recvLoop_ends (failure : Exn) : ∀ {fuel want : ℕ} {s : Socket τ}, want ≤ fuel →
    want ≤ s.inbox.length → want ≤ s.results.length → s.Steady →
    ∃ bs s', recvLoop failure fuel want s = (some (.ok bs), s') ∧
      s.results.length ≤ s'.results.length + want
  | 0, want, s, _, _, _, _ => ⟨[], s, rfl, Nat.le_add_right _ _⟩
  | fuel + 1, want, s, hfuel, hinbox, hresults, hs => by
    unfold recvLoop
    by_cases hwant : want = 0
    · rw [if_pos hwant]
      exact ⟨[], s, rfl, Nat.le_add_right _ _⟩
    · rw [if_neg hwant]
      -- as long as bytes are wanted there are bytes and results
      have hne : s.inbox ≠ [] := List.ne_nil_of_length_pos (by omega)
      cases hrs : s.results with
      | nil =>
        rw [hrs, List.length_nil] at hresults
        exact absurd (Nat.le_zero.mp hresults) hwant
      | cons r rs =>
        cases r with
        | none => exact absurd (hrs ▸ List.mem_cons_self) hs
        | some n =>
          obtain ⟨chunk, s₁, hcall, hresults₁⟩ := sysRecv_ends want hne hrs
          obtain ⟨hsplit, hpos, -, -⟩ := sysRecv_some (by omega) hcall
          have hs₁ : s₁.Steady := (sysRecv_steady hs hcall).2
          have hlen : s.inbox.length = chunk.length + s₁.inbox.length := by
            rw [hsplit, List.length_append]
          rw [hrs, List.length_cons, ← hresults₁] at hresults
          have hfuel' : want - chunk.length ≤ fuel := by omega
          obtain ⟨bs, s', hrun, hcount⟩ :=
            recvLoop_ends failure hfuel' (by omega) (by omega) hs₁
          -- one result was used for at least one byte
          refine ⟨chunk ++ bs, s', ?_, ?_⟩
          · rw [SockM.bind_of_ok hcall]
            change (recvLoop failure fuel (want - chunk.length) >>= fun rest =>
              pure (chunk ++ rest)) s₁ = _
            rw [SockM.bind_of_ok hrun]
            rfl
          · rw [List.length_cons, ← hresults₁]
            omega

/-- A read of bytes that are there takes them. -/
theorem recvExactly_ends (failure : Exn) {bs rest : Bytes} {s : Socket τ}
    (hinbox : s.inbox = bs ++ rest) (hresults : bs.length ≤ s.results.length) (hs : s.Steady) :
    ∃ s', recvExactly failure bs.length s = (some (.ok bs), s') ∧ s'.inbox = rest ∧
      s'.peer = s.peer ∧ s.results.length ≤ s'.results.length + bs.length ∧ s'.Steady := by
  have hlen : bs.length ≤ s.inbox.length := by
    rw [hinbox, List.length_append]
    omega
  obtain ⟨bs', s', hrun, hcount⟩ := recvLoop_ends failure le_rfl hlen hresults hs
  obtain ⟨hsplit, hlen', hpeer⟩ := recvLoop_ok le_rfl hrun
  obtain ⟨rfl, hrest⟩ := List.append_inj (hsplit.symm.trans hinbox) hlen'
  exact ⟨s', hrun, hrest, hpeer, hcount, (recvLoop_noThrow _ _ s s' _ hs hrun).2⟩

/-- A last fragment ends the record. -/
theorem recvFragments_last {f rest record : Bytes} {s : Socket τ} (hf : f.length < 2 ^ 31)
    (hinbox : s.inbox = lastFragmentBytes f ++ rest)
    (hresults : (lastFragmentBytes f).length ≤ s.results.length) (hs : s.Steady) (fuel : ℕ) :
    ∃ s', recvFragments (fuel + 1) record s = (some (.ok (record ++ f)), s') ∧ s'.inbox = rest ∧
      s'.peer = s.peer := by
  rw [lastFragmentBytes, List.append_assoc] at hinbox
  rw [length_lastFragmentBytes] at hresults
  -- first the mark, then the data
  obtain ⟨s₁, hmark, hin₁, hpeer₁, hcount, hs₁⟩ :=
    recvExactly_ends (.runtimeError "recv() record mark failed") hinbox
      (by rw [length_word]; omega) hs
  obtain ⟨s₂, hdata, hin₂, hpeer₂, -, -⟩ :=
    recvExactly_ends (.runtimeError "recv() record data failed") hin₁
      (by rw [length_word] at hcount; omega) hs₁
  refine ⟨s₂, ?_, hin₂, hpeer₂.trans hpeer₁⟩
  rw [length_word] at hmark
  -- the mark says that it is the last one, and how long it is
  have hflag : UInt32.ofNat (2 ^ 31 + f.length) &&& 0x80000000 ≠ 0 := by
    rw [Ne, and_flag_eq_zero_iff, toNat_ofNat_of_lt (by omega)]
    omega
  have hlen : (UInt32.ofNat (2 ^ 31 + f.length) &&& 0x7FFFFFFF).toNat = f.length := by
    rw [toNat_and_lengthMask, toNat_ofNat_of_lt (by omega)]
    omega
  unfold recvFragments
  rw [SockM.bind_of_ok hmark]
  simp only [assemble32_word, hlen]
  rw [SockM.bind_of_ok hdata, if_pos hflag]
  rfl

/-- Any other fragment is added to the record. -/
theorem recvFragments_more (record : Bytes) {f rest : Bytes} {s : Socket τ} (hf : f.length < 2 ^ 31)
    (hinbox : s.inbox = fragmentBytes f ++ rest)
    (hresults : (fragmentBytes f).length ≤ s.results.length) (hs : s.Steady) (fuel : ℕ) :
    ∃ s', recvFragments (fuel + 1) record s = recvFragments fuel (record ++ f) s' ∧
      s'.inbox = rest ∧ s'.peer = s.peer ∧
      s.results.length ≤ s'.results.length + (fragmentBytes f).length ∧ s'.Steady := by
  rw [fragmentBytes, List.append_assoc] at hinbox
  have hbytes : (fragmentBytes f).length = 4 + f.length := by
    rw [fragmentBytes, List.length_append, length_word]
  obtain ⟨s₁, hmark, hin₁, hpeer₁, hcount₁, hs₁⟩ :=
    recvExactly_ends (.runtimeError "recv() record mark failed") hinbox
      (by rw [length_word]; omega) hs
  rw [length_word] at hcount₁ hmark
  obtain ⟨s₂, hdata, hin₂, hpeer₂, hcount₂, hs₂⟩ :=
    recvExactly_ends (.runtimeError "recv() record data failed") hin₁ (by omega) hs₁
  refine ⟨s₂, ?_, hin₂, hpeer₂.trans hpeer₁, by omega, hs₂⟩
  -- the mark has no flag, so that its value is the length
  have hflag : ¬ UInt32.ofNat f.length &&& 0x80000000 ≠ 0 := by
    rw [not_not, and_flag_eq_zero_iff, toNat_ofNat_of_lt (by omega)]
    exact hf
  have hlen : (UInt32.ofNat f.length &&& 0x7FFFFFFF).toNat = f.length := by
    rw [toNat_and_lengthMask, toNat_ofNat_of_lt (by omega)]
    omega
  rw [recvFragments, SockM.bind_of_ok hmark]
  simp only [assemble32_word, hlen]
  rw [SockM.bind_of_ok hdata, if_neg hflag]

/-- The induction is on the fragments; every one has taken its share of the results. -/
theorem recvFragments_ends {last rest : Bytes} (hlast : last.length < 2 ^ 31) :
    ∀ (record : Bytes) {frags : List Bytes} {fuel : ℕ} {s : Socket τ},
      (∀ f ∈ frags, f.length < 2 ^ 31) → frags.length < fuel →
      s.inbox = frags.flatMap fragmentBytes ++ (lastFragmentBytes last ++ rest) →
      (frags.flatMap fragmentBytes ++ lastFragmentBytes last).length ≤ s.results.length →
      s.Steady →
      ∃ s', recvFragments fuel record s = (some (.ok (record ++ (frags.flatten ++ last))), s') ∧
        s'.inbox = rest ∧ s'.peer = s.peer
  | _, frags, 0, _, _, hfuel, _, _, _ => absurd hfuel (Nat.not_lt_zero _)
  | record, [], fuel + 1, s, _, _, hinbox, hresults, hs =>
    recvFragments_last hlast hinbox hresults hs fuel
  | record, f :: frags, fuel + 1, s, hshort, hfuel, hinbox, hresults, hs => by
    rw [List.flatMap_cons, List.append_assoc] at hinbox
    rw [List.flatMap_cons, List.append_assoc, List.length_append] at hresults
    -- this fragment, and then the others behind the longer record
    obtain ⟨s₁, hrun, hin₁, hpeer₁, hcount, hs₁⟩ :=
      recvFragments_more record (hshort f List.mem_cons_self) hinbox (by omega) hs fuel
    obtain ⟨s', hrun', hin', hpeer'⟩ :=
      recvFragments_ends hlast (record ++ f) (fun g hg => hshort g (List.mem_cons_of_mem f hg))
        (Nat.lt_of_succ_lt_succ hfuel) hin₁ (by omega) hs₁
    refine ⟨s', ?_, hin', hpeer'.trans hpeer₁⟩
    rw [hrun, hrun', List.flatten_cons, List.append_assoc, List.append_assoc]

/-- Every fragment has a mark of its own, so the bytes of a record outnumber its fragments. -/
theorem FramedReply.length_fragments_lt (r : FramedReply) :
    r.fragments.length < r.bytes.length := by
  have hmarks : ∀ frags : List Bytes, frags.length ≤ (frags.flatMap fragmentBytes).length := by
    intro frags
    induction frags with
    | nil => exact Nat.le_refl 0
    | cons f frags ih =>
      rw [List.flatMap_cons, List.length_append, List.length_cons, fragmentBytes,
        List.length_append, length_word]
      omega
  have h := hmarks r.fragments
  rw [FramedReply.bytes, List.length_append, length_lastFragmentBytes]
  omega

theorem recvRecord_ends {r : FramedReply} {rest : Bytes} {s : Socket τ}
    (hinbox : s.inbox = r.bytes ++ rest) (hresults : r.bytes.length ≤ s.results.length)
    (hs : s.Steady) :
    ∃ s', recvRecord s = (some (.ok r.record), s') ∧ s'.inbox = rest ∧ s'.peer = s.peer := by
  have hfuel : r.fragments.length < s.results.length + 1 := by
    have h := r.length_fragments_lt
    omega
  rw [FramedReply.bytes, List.append_assoc] at hinbox
  exact recvFragments_ends r.last_short [] r.fragments_short hfuel hinbox hresults hs

end Receive

/-- **Records are delivered exactly.** While `send()` does not fail, what is on the wire is the front
of the message: once, in order, and all of it when `sendAll` returns, after as many `send()` calls as
the message has bytes at the latest. From a stream that begins with a record, in any fragments,
`recvRecord` returns the record and leaves what follows it, whatever `recv()` returns at a time. -/
theorem records_delivered :
    (∀ (pace : Bytes → ℕ) (data : Bytes) (s : Socket Tape), s.Steady →
      ∃ sent left s', data = sent ++ left ∧
        sendAll (Tape.receive pace) data s = (if left = [] then some (.ok ()) else none, s') ∧
        s'.peer.wire = s.peer.wire ++ sent ∧ (left ≠ [] → s.results.length ≤ sent.length)) ∧
    ∀ (τ : Type) (r : FramedReply) (rest : Bytes) (s : Socket τ), s.inbox = r.bytes ++ rest →
      r.bytes.length ≤ s.results.length → s.Steady →
      ∃ s', recvRecord s = (some (.ok r.record), s') ∧ s'.inbox = rest ∧ s'.peer = s.peer := by
  constructor
  · intro pace data s hs
    obtain ⟨sent, left, s', hsplit, hrun, hwire, -, hleft⟩ :=
      sendLoop_tape pace (le_refl data.length) hs
    exact ⟨sent, left, s', hsplit, hrun, hwire, hleft⟩
  · intro τ r rest s hinbox hresults hs
    exact recvRecord_ends hinbox hresults hs

/-- A message of three bytes and a record in three fragments, one of them empty; the first mark is
cut in two. -/
theorem two_byte_sends_and_split_mark :
    (∃ s', sendAll (Tape.receive fun _ => 0) [1, 2, 3]
        ⟨⟨[], []⟩, [], [some 2, some 1, some 1]⟩ = (some (.ok ()), s') ∧
      s'.peer.wire = [1, 2, 3]) ∧
    ∃ s' : Socket Unit, recvRecord
        ⟨(), fragmentBytes [7] ++ fragmentBytes [] ++ lastFragmentBytes [8, 9] ++ [5],
          some 2 :: List.replicate 14 (some 9)⟩ = (some (.ok [7, 8, 9]), s') ∧
      s'.inbox = [5] := by
  constructor
  · obtain ⟨sent, left, s', hsplit, hrun, hwire, hleft⟩ :=
      records_delivered.1 (fun _ => 0) [1, 2, 3] ⟨⟨[], []⟩, [], [some 2, some 1, some 1]⟩ (by decide)
    have hlen := congrArg List.length hsplit
    rw [List.length_append] at hlen
    -- three bytes and three results: nothing can be left
    have hdone : left = [] := by
      by_contra hne
      have hpos := List.length_pos_iff.mpr hne
      have hsent := hleft hne
      simp only [List.length_cons, List.length_nil] at hlen hsent
      omega
    subst hdone
    rw [List.append_nil] at hsplit
    exact ⟨s', hrun, hwire.trans hsplit.symm⟩
  · obtain ⟨s', hrun, hinbox, -⟩ := records_delivered.2 Unit
      ⟨[[7], []], [8, 9], by decide, by decide⟩ [5]
      ⟨(), fragmentBytes [7] ++ fragmentBytes [] ++ lastFragmentBytes [8, 9] ++ [5],
        some 2 :: List.replicate 14 (some 9)⟩ (by decide +kernel) (by decide +kernel)
      (by decide +kernel)
    exact ⟨s', hrun, hinbox⟩

/-! ### Runs of calls -/

/-- The tape as an environment of programs. -/
def Tape.step (pace : Bytes → ℕ) : Step RpcRequest Received (Socket Tape) := fun s q received s' =>
  socketServe (Tape.receive pace) s q = (some received, s')

/-- The bytes of some records and of what follows them. -/
def streamOf (records : List FramedReply) (rest : Bytes) : Bytes :=
  records.flatMap FramedReply.bytes ++ rest

section Runs

variable {pace : Bytes → ℕ}

/-- **One exchange in step**: at the boundary of a record, it ends at the next boundary with this
record, and the request is on the wire. -/
theorem exchange_tape {record : FramedReply} {more framed : Bytes} {s s' : Socket Tape}
    {received : Received} (hs : s.Steady) (hstream : s.stream = record.bytes ++ more)
    (hrun : exchange (Tape.receive pace) framed s = (some received, s')) :
    received = .ok record.record ∧ s'.stream = more ∧
      s'.peer.wire = s.peer.wire ++ framed ∧ s'.Steady := by
  -- nothing fails, so that `sendAll` and `recvRecord` both returned
  obtain ⟨⟨x, rfl⟩, hs'⟩ := exchange_noThrow framed s s' received hs hrun
  obtain ⟨u, s₁, hsend, hrecv⟩ := SockM.bind_ok.mp hrun
  obtain ⟨hwire, hstream₁⟩ := sendAll_tape hs hsend
  have hin : s₁.inbox ++ s₁.peer.left = record.fragments.flatMap fragmentBytes ++
      (lastFragmentBytes record.last ++ more) := by
    rw [← List.append_assoc]
    exact hstream₁.trans hstream
  obtain ⟨hrecord, hin', hpeer⟩ := recvFragments_ok record.fragments_short hin hrecv
  refine ⟨congrArg Except.ok hrecord, ?_, by rw [hpeer, hwire], hs'⟩
  rw [Socket.stream, hpeer]
  exact hin'

/-- **Every program stays in step**, whatever it makes of the records. -/
theorem trace_tape {α : Type} {p p' : Prog RpcRequest Received α} {s s' : Socket Tape}
    {tr : List (RpcRequest × Received)} (htr : Trace (Tape.step pace) p s tr p' s') {rest : Bytes} :
    ∀ {records : List FramedReply}, s.Steady → s.stream = streamOf records rest →
      tr.length ≤ records.length →
      tr.map Prod.snd = (records.take tr.length).map (fun r => .ok r.record) ∧
        s'.stream = streamOf (records.drop tr.length) rest ∧
        s'.peer.wire = s.peer.wire ++ tr.flatMap fun exchange => exchange.1.framed := by
  induction htr with
  | refl p s =>
    intro records _ hstream _
    exact ⟨rfl, hstream, (List.append_nil _).symm⟩
  | @call q k s s₁ s' received tr p' hstep _ ih =>
    -- one exchange takes one record from the stream
    intro records hs hstream hlen
    cases records with
    | nil => exact absurd hlen (Nat.not_succ_le_zero _)
    | cons record records =>
      rw [streamOf, List.flatMap_cons, List.append_assoc] at hstream
      obtain ⟨rfl, hstream₁, hwire₁, hs₁⟩ := exchange_tape hs hstream hstep
      obtain ⟨hanswers, hstream', hwire'⟩ := ih hs₁ hstream₁ (Nat.le_of_succ_le_succ hlen)
      refine ⟨?_, hstream', ?_⟩
      · rw [List.map_cons, hanswers]
        rfl
      · rw [hwire', hwire₁, List.flatMap_cons, List.append_assoc]

end Runs

/-- The arguments of a call, after `set_auth_sys` or `clear_auth`. -/
structure CallArgs where
  auth : Option AuthSys
  prog : UInt32
  vers : UInt32
  proc : UInt32
  args : Bytes

def CallArgs.perform (c : CallArgs) : ClientM TcpRpcClient Bytes := do
  ClientM.assign fun rpc => { rpc with auth_sys_ := c.auth }
  TcpRpcClient.call c.prog c.vers c.proc c.args

/-- A caller of one client: its next call may depend on all that has come out of the calls before,
values and exceptions, by whatever decoders. -/
abbrev RpcCaller : Type := Strategy CallArgs fun _ => Except Exn Bytes

/-- The xid of a call is one more than the number of answers before it, wherever they come from. -/
theorem wp_caller (caller : RpcCaller) (port : UInt16) :
    wp anyAnswer (fun h q => q.xid = UInt32.ofNat (h.length + 1)) (fun _ _ => True)
      (caller.prog CallArgs.perform (TcpRpcClient.connect port)) [] := by
  -- the counter of the client is one ahead of the number of answers
  have hmethod : ∀ (c : CallArgs) (rpc : TcpRpcClient) (h : List Received),
      rpc.xid_ = UInt32.ofNat (h.length + 1) →
      wpM anyAnswer (fun h q => q.xid = UInt32.ofNat (h.length + 1))
        (fun _ rpc' h' => rpc'.xid_ = UInt32.ofNat (h'.length + 1)) c.perform rpc h := by
    intro c rpc h hxid
    refine wpM_assign_bind.mpr (wpM_call.mpr ⟨hxid, ?_⟩)
    rintro r _ rfl
    change rpc.xid_ + 1 = _
    rw [hxid, List.length_append, List.length_singleton, UInt32.ofNat_add (h.length + 1) 1]
    rfl
  exact wp_mono (fun _ _ _ => trivial)
    (Strategy.wp_prog (fun c rpc h => hmethod c rpc h) caller (TcpRpcClient.connect port) [] rfl)

/-- **Calls stay in step.** In every run of calls on a new client in which no `send()` and no `recv()`
fails, the `k`-th call receives the `k`-th record of the stream, whatever this record and the records
before it hold, and the stream is left at the boundary behind it; its request has the xid `k` and is
on the wire in its frame. -/
theorem calls_in_step (pace : Bytes → ℕ) (port : UInt16) (caller : RpcCaller)
    (records : List FramedReply) (rest : Bytes) (results : List (Option ℕ))
    (hsteady : none ∉ results) (tr : List (RpcRequest × Received))
    (p : Prog RpcRequest Received TcpRpcClient) (s : Socket Tape)
    (htr : Trace (Tape.step pace) (caller.prog CallArgs.perform (TcpRpcClient.connect port))
      ⟨⟨[], streamOf records rest⟩, [], results⟩ tr p s)
    (hlen : tr.length ≤ records.length) :
    tr.map Prod.snd = (records.take tr.length).map (fun r => .ok r.record) ∧
      s.stream = streamOf (records.drop tr.length) rest ∧
      (∀ k exchange, tr[k]? = some exchange → exchange.1.xid = UInt32.ofNat (k + 1)) ∧
      s.peer.wire = tr.flatMap fun exchange => exchange.1.framed := by
  obtain ⟨hanswers, hstream, hwire⟩ := trace_tape htr hsteady rfl hlen
  refine ⟨hanswers, hstream, ?_, hwire⟩
  rintro k ⟨q, received⟩ hk
  have hxid := wp_request htr (wp_caller caller port) hk
  -- the `k`-th exchange exists, so that the bound on the records does not cut it off
  have hlt : k < tr.length := (List.getElem?_eq_some_iff.mp hk).1
  rwa [List.length_map, List.length_take, Nat.min_eq_left (Nat.le_of_lt hlt)] at hxid

/-- A client that calls twice, whatever comes back. -/
def twoCalls : RpcCaller :=
  .invoke ⟨none, 100003, 4, 0, []⟩ fun _ => .invoke ⟨none, 100003, 4, 0, []⟩ fun _ => .stop

/-- A record that is no reply, and a reply in two fragments with the one-byte result `42`. -/
def garbageAndReply : List FramedReply :=
  [⟨[], [1], by decide, by decide⟩,
    ⟨[acceptedHeader 2 AUTH_NONE []], [42], by decide, by decide⟩]

/-- The socket on which the two records come. -/
def garbageAndReplySocket : Socket Tape :=
  ⟨⟨[], streamOf garbageAndReply []⟩, [], List.replicate 20 (some 30)⟩

theorem twoCalls_run : ∃ tr p s, tr.length = 2 ∧ Trace (Tape.step fun _ => 100)
    (twoCalls.prog CallArgs.perform (TcpRpcClient.connect 2049)) garbageAndReplySocket tr p s := by
  have hstep : ∀ {s : Socket Tape} {q : RpcRequest} {received : Received},
      (socketServe (Tape.receive fun _ => 100) s q).1 = some received →
      Tape.step (fun _ => 100) s q received (socketServe (Tape.receive fun _ => 100) s q).2 :=
    fun h => Prod.ext h rfl
  have hfirst : (socketServe (Tape.receive fun _ => 100) garbageAndReplySocket
      ⟨2049, 1, 100003, 4, 0, [], none⟩).1 = some (.ok [1]) := by decide +kernel
  have hsecond : (socketServe (Tape.receive fun _ => 100)
      (socketServe (Tape.receive fun _ => 100) garbageAndReplySocket
        ⟨2049, 1, 100003, 4, 0, [], none⟩).2
      ⟨2049, 2, 100003, 4, 0, [], none⟩).1
        = some (.ok (acceptedHeader 2 AUTH_NONE [] ++ [42])) := by decide +kernel
  exact ⟨_, _, _, rfl, .call (hstep hfirst) (.call (hstep hsecond) (.refl _ _))⟩

/-- The first call throws, and the second one receives the reply. -/
theorem reply_behind_garbage :
    ∃ tr p s, Trace (Tape.step fun _ => 100)
        (twoCalls.prog CallArgs.perform (TcpRpcClient.connect 2049)) garbageAndReplySocket tr p s ∧
      tr.map Prod.snd = [.ok [1], .ok (acceptedHeader 2 AUTH_NONE [] ++ [42])] ∧
      s.stream = [] := by
  obtain ⟨tr, p, s, hlen, htr⟩ := twoCalls_run
  obtain ⟨hanswers, hstream, -⟩ := calls_in_step _ 2049 twoCalls garbageAndReply []
    (List.replicate 20 (some 30)) (by decide) tr p s htr (by rw [hlen]; decide)
  rw [hlen] at hanswers hstream
  exact ⟨tr, p, s, htr, hanswers, hstream⟩

end NfsClient
