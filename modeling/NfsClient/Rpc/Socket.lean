import NfsClient.Rpc.Client

/-!
# The socket under TcpRpcClient

`sendAll` and `recvRecord` down to the single `send()` and `recv()` calls. A connected socket is
the state of the peer, the bytes the peer has written that the client has not read yet, and the
results that the coming `send()` and `recv()` calls will have: `some n` for a positive count,
`none` for a result `≤ 0`. A count larger than what was offered or than what has arrived is cut
down to it, and a count of zero up to one, so that every list of results is a legal behaviour of
the two system calls and every legal behaviour is such a list.

The peer handles the bytes of a `send()` at once. Nothing is lost by that: a peer that takes its
time can only make a `recv()` wait longer.
-/

namespace NfsClient

open Xdr Reader Interaction

/-- A connected socket and its peer, whose state is `τ`. -/
structure Socket (τ : Type) where
  peer : τ
  /-- Written by the peer, not yet read by the client. -/
  inbox : Bytes
  /-- The results of the coming `send()` and `recv()` calls. -/
  results : List (Option ℕ)

/-- A computation that makes system calls: it ends with a value or an exception, or (`none`) it
is still waiting in a system call. -/
def SockM (τ α : Type) : Type := Socket τ → Option (Except Exn α) × Socket τ

namespace SockM

variable {τ α β : Type}

protected def pure (a : α) : SockM τ α := fun s => (some (.ok a), s)

protected def bind (m : SockM τ α) (f : α → SockM τ β) : SockM τ β := fun s =>
  match m s with
  | (some (.ok a), s') => f a s'
  | (some (.error e), s') => (some (.error e), s')
  | (none, s') => (none, s')

instance : Monad (SockM τ) where
  pure := SockM.pure
  bind := SockM.bind

def throw (e : Exn) : SockM τ α := fun s => (some (.error e), s)

theorem pure_ok {a b : α} {s s' : Socket τ} :
    (pure a : SockM τ α) s = (some (.ok b), s') ↔ a = b ∧ s = s' := by
  change (some (Except.ok a), s) = _ ↔ _
  simp

theorem throw_ok {e : Exn} {b : α} {s s' : Socket τ} :
    ¬ (throw e : SockM τ α) s = (some (.ok b), s') := by
  intro h
  cases h

theorem bind_ok {m : SockM τ α} {f : α → SockM τ β} {s s'' : Socket τ} {b : β} :
    (m >>= f) s = (some (.ok b), s'') ↔
      ∃ a s', m s = (some (.ok a), s') ∧ f a s' = (some (.ok b), s'') := by
  change SockM.bind m f s = _ ↔ _
  unfold SockM.bind
  rcases hm : m s with ⟨_ | _ | a, s'⟩ <;> simp

theorem bind_error {m : SockM τ α} {f : α → SockM τ β} {s s'' : Socket τ} {e : Exn} :
    (m >>= f) s = (some (.error e), s'') ↔
      m s = (some (.error e), s'') ∨
        ∃ a s', m s = (some (.ok a), s') ∧ f a s' = (some (.error e), s'') := by
  change SockM.bind m f s = _ ↔ _
  unfold SockM.bind
  rcases hm : m s with ⟨_ | _ | a, s'⟩ <;> simp

theorem bind_of_ok {m : SockM τ α} {f : α → SockM τ β} {s s' : Socket τ} {a : α}
    (h : m s = (some (.ok a), s')) : (m >>= f) s = f a s' := by
  change SockM.bind m f s = _
  unfold SockM.bind
  rw [h]

theorem bind_of_waiting {m : SockM τ α} {f : α → SockM τ β} {s s' : Socket τ}
    (h : m s = (none, s')) : (m >>= f) s = (none, s') := by
  change SockM.bind m f s = _
  unfold SockM.bind
  rw [h]

end SockM

/-! ### System calls -/

section

variable {τ : Type} (receive : τ → Bytes → τ × Bytes)

/-- The count a system call transfers when up to `limit` bytes can be transferred. -/
def transfer (n limit : ℕ) : ℕ := max 1 (min n limit)

/-- `send()`: `none` stands for a result `≤ 0`. -/
def sysSend (data : Bytes) : SockM τ (Option ℕ) := fun s =>
  match s.results with
  | [] => (none, s)
  | none :: rs => (some (.ok none), { s with results := rs })
  | some n :: rs =>
    let k := transfer n data.length
    let (peer, written) := receive s.peer (data.take k)
    (some (.ok (some k)), ⟨peer, s.inbox ++ written, rs⟩)

/-- `recv()` of at most `want` bytes; it waits when there is nothing to read. -/
def sysRecv (want : ℕ) : SockM τ (Option Bytes) := fun s =>
  match s.results with
  | [] => (none, s)
  | none :: rs => (some (.ok none), { s with results := rs })
  | some n :: rs =>
    if s.inbox = [] then (none, s)
    else
      let k := transfer n (min want s.inbox.length)
      (some (.ok (some (s.inbox.take k))), { s with inbox := s.inbox.drop k, results := rs })

/-! ### sendAll and recvRecord -/

/-- The loop of `sendAll`; `data` is what is left of the buffer from `total` on. Every iteration
sends at least one byte, so the number of bytes left bounds the iterations. -/
def sendLoop : ℕ → Bytes → SockM τ Unit
  | 0, _ => return ()
  | fuel + 1, data =>
    if data = [] then return ()
    else do
      match ← sysSend receive data with
      | none => SockM.throw (.runtimeError "send() failed")
      | some n => sendLoop fuel (data.drop n)

def sendAll (data : Bytes) : SockM τ Unit := sendLoop receive data.length data

/-- `while (received < want)` around `recv()`. -/
def recvLoop (failure : Exn) : ℕ → ℕ → SockM τ Bytes
  | 0, _ => return []
  | fuel + 1, want =>
    if want = 0 then return []
    else do
      match ← sysRecv want with
      -- an error and the end of the stream alike
      | none => SockM.throw failure
      | some chunk => do
        let rest ← recvLoop failure fuel (want - chunk.length)
        return chunk ++ rest

/-- Read exactly `want` bytes. -/
def recvExactly (failure : Exn) (want : ℕ) : SockM τ Bytes := recvLoop failure want want

/-- The fragment loop of `recvRecord`, with the record reassembled so far. -/
def recvFragments : ℕ → Bytes → SockM τ Bytes
  | 0, _ => fun s => (none, s)
  | fuel + 1, record => do
    let markBuf ← recvExactly (.runtimeError "recv() record mark failed") 4
    let mark := assemble32 markBuf
    -- the first bit of the mark, the other 31 are the length
    let lastFragment := mark &&& 0x80000000 ≠ 0
    let fragLen := mark &&& 0x7FFFFFFF
    let data ← recvExactly (.runtimeError "recv() record data failed") fragLen.toNat
    if lastFragment then return record ++ data
    else recvFragments fuel (record ++ data)

/-- Every fragment takes at least one `recv()` for its mark, so the number of results to come
bounds the fragments. -/
def recvRecord : SockM τ Bytes := fun s => recvFragments (s.results.length + 1) [] s

/-- What is between the request of a call and its record. -/
def exchange (framed : Bytes) : SockM τ Bytes := do
  sendAll receive framed
  recvRecord

/-- The socket as the server of the program that `TcpRpcClient` is. -/
def socketServe (s : Socket τ) (q : RpcRequest) : Option Received × Socket τ :=
  exchange receive q.framed s

end

/-! ### What the loops do to the stream -/

section

variable {τ : Type} {receive : τ → Bytes → τ × Bytes}

theorem transfer_pos (n limit : ℕ) : 1 ≤ transfer n limit := le_max_left _ _

theorem transfer_le {n limit : ℕ} (h : 0 < limit) : transfer n limit ≤ limit := by
  unfold transfer
  omega

theorem sysRecv_some {want : ℕ} {chunk : Bytes} {s s' : Socket τ} (hw : 0 < want)
    (h : sysRecv want s = (some (.ok (some chunk)), s')) :
    s.inbox = chunk ++ s'.inbox ∧ 0 < chunk.length ∧ chunk.length ≤ want ∧ s'.peer = s.peer := by
  unfold sysRecv at h
  split at h
  · cases h
  · cases h
  · next n rs hrs =>
    split at h
    · cases h
    · next hin =>
      have hpos : 0 < s.inbox.length := List.length_pos_iff.mpr hin
      -- what is transferred is at least one byte, and no more than is wanted or there
      have hk := transfer_pos n (min want s.inbox.length)
      have hk' : transfer n (min want s.inbox.length) ≤ min want s.inbox.length :=
        transfer_le (by omega)
      simp only [Prod.mk.injEq, Option.some.injEq, Except.ok.injEq] at h
      obtain ⟨rfl, rfl⟩ := h
      refine ⟨(List.take_append_drop _ _).symm, ?_, ?_, rfl⟩ <;>
      · rw [List.length_take]
        omega

/-- Reading `want` bytes takes exactly the next `want` bytes of the stream, however `recv()`
splits them. -/
theorem recvLoop_ok {failure : Exn} :
    ∀ {fuel want : ℕ} {bs : Bytes} {s s' : Socket τ}, want ≤ fuel →
      recvLoop failure fuel want s = (some (.ok bs), s') →
        s.inbox = bs ++ s'.inbox ∧ bs.length = want ∧ s'.peer = s.peer
  | 0, want, bs, s, s', hf, h => by
    obtain ⟨rfl, rfl⟩ := SockM.pure_ok.mp h
    exact ⟨rfl, by simp; omega, rfl⟩
  | fuel + 1, want, bs, s, s', hf, h => by
    unfold recvLoop at h
    split at h
    · next hw =>
      obtain ⟨rfl, rfl⟩ := SockM.pure_ok.mp h
      exact ⟨rfl, by simp [hw], rfl⟩
    · next hw =>
      obtain ⟨r, s₁, h₁, h₂⟩ := SockM.bind_ok.mp h
      cases r with
      | none => exact absurd h₂ SockM.throw_ok
      | some chunk =>
        obtain ⟨rest, s₂, h₃, h₄⟩ := SockM.bind_ok.mp h₂
        obtain ⟨rfl, rfl⟩ := SockM.pure_ok.mp h₄
        -- each round takes at least one byte, so that the fuel is enough
        obtain ⟨hin, hpos, hle, hpeer⟩ := sysRecv_some (by omega) h₁
        obtain ⟨hin', hlen, hpeer'⟩ := recvLoop_ok (by omega) h₃
        refine ⟨by rw [hin, hin', List.append_assoc], ?_, hpeer'.trans hpeer⟩
        rw [List.length_append, hlen]
        omega

theorem recvExactly_ok {failure : Exn} {want : ℕ} {bs : Bytes} {s s' : Socket τ}
    (h : recvExactly failure want s = (some (.ok bs), s')) :
    s.inbox = bs ++ s'.inbox ∧ bs.length = want ∧ s'.peer = s.peer :=
  recvLoop_ok le_rfl h

/-! ### Runs without a failing system call -/

/-- None of the results to come is a failure. -/
def Socket.Steady (s : Socket τ) : Prop := none ∉ s.results

instance (s : Socket τ) : Decidable s.Steady := inferInstanceAs (Decidable (none ∉ s.results))

/-- On a steady socket `m` does not throw, and leaves the socket steady. -/
def SockM.NoThrow {α : Type} (m : SockM τ α) : Prop :=
  ∀ (s s' : Socket τ) (r : Except Exn α), s.Steady → m s = (some r, s') →
    (∃ a, r = .ok a) ∧ s'.Steady

namespace SockM

variable {α β : Type}

theorem NoThrow.pure (a : α) : NoThrow (Pure.pure a : SockM τ α) := by
  intro s s' r hs h
  cases h
  exact ⟨⟨a, rfl⟩, hs⟩

/-- The continuation need only be considered at values that a steady run can yield. -/
theorem NoThrow.bind_of {m : SockM τ α} {f : α → SockM τ β} {P : α → Prop}
    (hP : ∀ {s s' a}, Socket.Steady s → m s = (some (.ok a), s') → P a)
    (hm : NoThrow m) (hf : ∀ a, P a → NoThrow (f a)) : NoThrow (m >>= f) := by
  intro s s'' r hs h
  cases r with
  | error e =>
    obtain h₁ | ⟨a, s', h₁, h₂⟩ := bind_error.mp h
    · obtain ⟨⟨_, hr⟩, -⟩ := hm _ _ _ hs h₁
      cases hr
    · exact hf a (hP hs h₁) _ _ _ (hm _ _ _ hs h₁).2 h₂
  | ok b =>
    obtain ⟨a, s', h₁, h₂⟩ := bind_ok.mp h
    exact hf a (hP hs h₁) _ _ _ (hm _ _ _ hs h₁).2 h₂

theorem NoThrow.bind {m : SockM τ α} {f : α → SockM τ β} (hm : NoThrow m)
    (hf : ∀ a, NoThrow (f a)) : NoThrow (m >>= f) :=
  NoThrow.bind_of (fun _ _ => trivial) hm fun a _ => hf a

end SockM

open SockM

theorem sysSend_steady {data : Bytes} {s s' : Socket τ} {r : Except Exn (Option ℕ)}
    (hs : s.Steady) (h : sysSend receive data s = (some r, s')) :
    (∃ n, r = .ok (some n)) ∧ s'.Steady := by
  unfold sysSend at h
  split at h
  · cases h
  · next rs hrs => exact absurd (hrs ▸ List.mem_cons_self) hs
  · next n rs hrs =>
    cases h
    exact ⟨⟨_, rfl⟩, fun hn => hs (hrs ▸ List.mem_cons_of_mem _ hn)⟩

theorem sysRecv_steady {want : ℕ} {s s' : Socket τ} {r : Except Exn (Option Bytes)}
    (hs : s.Steady) (h : sysRecv want s = (some r, s')) :
    (∃ chunk, r = .ok (some chunk)) ∧ s'.Steady := by
  unfold sysRecv at h
  split at h
  · cases h
  · next rs hrs => exact absurd (hrs ▸ List.mem_cons_self) hs
  · next n rs hrs =>
    split at h
    · cases h
    · cases h
      exact ⟨⟨_, rfl⟩, fun hn => hs (hrs ▸ List.mem_cons_of_mem _ hn)⟩

/-- A steady system call does not yield `none`, so that only the good branch is left. -/
private theorem ne_none_of_ok {α : Type} {m : SockM τ (Option α)}
    (hm : ∀ {s s' r}, Socket.Steady s → m s = (some r, s') → (∃ a, r = .ok (some a)) ∧ s'.Steady)
    {s s' : Socket τ} {a : Option α} (hs : s.Steady) (h : m s = (some (.ok a), s')) :
    a ≠ none := by
  obtain ⟨⟨x, hx⟩, -⟩ := hm hs h
  cases hx
  exact Option.some_ne_none x

private theorem noThrow_of_some {α : Type} {m : SockM τ (Option α)}
    (hm : ∀ {s s' r}, Socket.Steady s → m s = (some r, s') → (∃ a, r = .ok (some a)) ∧ s'.Steady) :
    NoThrow m := by
  intro s s' r hs h
  obtain ⟨⟨x, hx⟩, hs'⟩ := hm hs h
  exact ⟨⟨some x, hx⟩, hs'⟩

theorem sendLoop_noThrow : ∀ (fuel : ℕ) (data : Bytes), NoThrow (sendLoop receive fuel data)
  | 0, _ => NoThrow.pure ()
  | fuel + 1, data => by
    unfold sendLoop
    split
    · exact NoThrow.pure ()
    · refine NoThrow.bind_of (ne_none_of_ok sysSend_steady) (noThrow_of_some sysSend_steady) ?_
      intro r hr
      cases r with
      | none => exact absurd rfl hr
      | some n => exact sendLoop_noThrow fuel (data.drop n)

theorem recvLoop_noThrow {failure : Exn} :
    ∀ (fuel want : ℕ), NoThrow (recvLoop failure fuel want : SockM τ Bytes)
  | 0, _ => NoThrow.pure []
  | fuel + 1, want => by
    unfold recvLoop
    split
    · exact NoThrow.pure []
    · refine NoThrow.bind_of (ne_none_of_ok sysRecv_steady) (noThrow_of_some sysRecv_steady) ?_
      intro r hr
      cases r with
      | none => exact absurd rfl hr
      | some chunk =>
        exact (recvLoop_noThrow fuel (want - chunk.length)).bind fun rest => NoThrow.pure _

theorem recvFragments_noThrow :
    ∀ (fuel : ℕ) (record : Bytes), NoThrow (recvFragments fuel record : SockM τ Bytes)
  | 0, _ => fun _ _ _ _ h => by cases h
  | fuel + 1, record => by
    unfold recvFragments
    refine (recvLoop_noThrow 4 4).bind fun markBuf => ?_
    refine (recvLoop_noThrow _ _).bind fun data => ?_
    split
    · exact NoThrow.pure _
    · exact recvFragments_noThrow fuel _

theorem recvRecord_noThrow : NoThrow (recvRecord : SockM τ Bytes) :=
  fun s s' r hs h => recvFragments_noThrow _ _ s s' r hs h

/-- **No exception out of the transport** when every system call succeeds. -/
theorem exchange_noThrow (framed : Bytes) : NoThrow (exchange receive framed) :=
  (sendLoop_noThrow _ _).bind fun _ => recvRecord_noThrow

/-- A `send()` that fails before any byte is out leaves the socket as it was. -/
theorem exchange_send_failed {framed : Bytes} {s : Socket τ} {rs : List (Option ℕ)}
    (hf : framed ≠ []) (hs : s.results = none :: rs) :
    exchange receive framed s
      = (some (.error (.runtimeError "send() failed")), { s with results := rs }) := by
  have hlen : framed.length = framed.length - 1 + 1 := by
    have := List.length_pos_iff.mpr hf
    omega
  -- the first `send()` is the one that fails
  have hcall : sysSend receive framed s = (some (.ok none), { s with results := rs }) := by
    unfold sysSend
    rw [hs]
  have hsend : sendAll receive framed s
      = (some (.error (.runtimeError "send() failed")), { s with results := rs }) := by
    rw [sendAll, hlen, sendLoop, if_neg hf]
    exact bind_error.mpr (Or.inr ⟨none, _, hcall, rfl⟩)
  exact bind_error.mpr (Or.inl hsend)

end

end NfsClient
