import NfsClient.Rpc.Socket

/-!
# The transport as a program of system calls

`Rpc/Socket` runs `sendAll` and `recvRecord` against one socket from beginning to end. Where several
clients are under way at once, the system calls of the others come in between, and what is needed is
the program between two of its own. `SysM` is such a program: a tree of `send()` and `recv()` calls
that goes on from their results.

`exchange_run` says that the two are one piece of code: run on a socket, the program does what
`exchange` does.
-/

namespace NfsClient

open Xdr Interaction

/-- A system call on the connected socket. -/
inductive SysCall
  | send (data : Bytes)
  | recv (want : ℕ)

/-- Its result; `failed` is a result `≤ 0`. -/
inductive SysResult
  | failed
  | sent (n : ℕ)
  | received (bs : Bytes)

/-- A program that makes system calls, and ends with a value or an exception. -/
abbrev SysM (α : Type) : Type := Prog SysCall SysResult (Except Exn α)

namespace SysM

variable {α β : Type}

/-- `return a;` -/
def ret (a : α) : SysM α := .done (.ok a)

/-- `throw e;` -/
def throw (e : Exn) : SysM α := .done (.error e)

/-- Statements in sequence: an exception ends the program. -/
def andThen (m : SysM α) (f : α → SysM β) : SysM β :=
  m.bind fun
    | .ok a => f a
    | .error e => .done (.error e)

/-- `send()`, as `sysSend` hands its result on. -/
def send (data : Bytes) : SysM (Option ℕ) :=
  .call (.send data) fun
    | .sent n => ret (some n)
    | _ => ret none

/-- `recv()`, as `sysRecv` hands its result on. -/
def recv (want : ℕ) : SysM (Option Bytes) :=
  .call (.recv want) fun
    | .received bs => ret (some bs)
    | _ => ret none

/-- The loop of `sendAll`. -/
def sendLoop : ℕ → Bytes → SysM Unit
  | 0, _ => ret ()
  | fuel + 1, data =>
    if data = [] then ret ()
    else (send data).andThen fun
      | none => throw (.runtimeError "send() failed")
      | some n => sendLoop fuel (data.drop n)

def sendAll (data : Bytes) : SysM Unit := sendLoop data.length data

/-- `while (received < want)` around `recv()`. -/
def recvLoop (failure : Exn) : ℕ → ℕ → SysM Bytes
  | 0, _ => ret []
  | fuel + 1, want =>
    if want = 0 then ret []
    else (recv want).andThen fun
      | none => throw failure
      | some chunk => (recvLoop failure fuel (want - chunk.length)).andThen fun rest =>
        ret (chunk ++ rest)

def recvExactly (failure : Exn) (want : ℕ) : SysM Bytes := recvLoop failure want want

/-- The fragment loop of `recvRecord`. -/
def recvFragments : ℕ → Bytes → SysM Bytes
  | 0, _ => .cut
  | fuel + 1, record =>
    (recvExactly (.runtimeError "recv() record mark failed") 4).andThen fun markBuf =>
      let mark := assemble32 markBuf
      let lastFragment := mark &&& 0x80000000 ≠ 0
      let fragLen := mark &&& 0x7FFFFFFF
      (recvExactly (.runtimeError "recv() record data failed") fragLen.toNat).andThen fun data =>
        if lastFragment then ret (record ++ data) else recvFragments fuel (record ++ data)

/-- A request and its record, of at most `fuel` fragments. -/
def exchange (fuel : ℕ) (framed : Bytes) : SysM Bytes :=
  (sendAll framed).andThen fun _ => recvFragments fuel []

end SysM

/-! ### On one socket -/

section

variable {τ α β : Type} (receive : τ → Bytes → τ × Bytes)

/-- The socket answers the system calls. -/
def sysServe (s : Socket τ) : SysCall → Option SysResult × Socket τ
  | .send data =>
    match sysSend receive data s with
    | (some (.ok (some n)), s') => (some (.sent n), s')
    | (some _, s') => (some .failed, s')
    | (none, s') => (none, s')
  | .recv want =>
    match sysRecv want s with
    | (some (.ok (some bs)), s') => (some (.received bs), s')
    | (some _, s') => (some .failed, s')
    | (none, s') => (none, s')

/-- On every socket `p` does what `m` does. -/
def Reifies (p : SysM α) (m : SockM τ α) : Prop :=
  ∀ s, p.run (sysServe receive) s = m s

variable {receive} {p : SysM α} {m : SockM τ α}

theorem Reifies.pure (a : α) : Reifies receive (SysM.ret a) (Pure.pure a) := fun _ => rfl

theorem Reifies.throw (e : Exn) : Reifies receive (SysM.throw e : SysM α) (SockM.throw e) :=
  fun _ => rfl

theorem run_bind_none {Q R S : Type} {serve : S → Q → Option R × S} {f : α → Prog Q R β} {s' : S} :
    ∀ {p : Prog Q R α} {s : S}, p.run serve s = (none, s') → (p.bind f).run serve s = (none, s')
  | .done _, _, h => nomatch h
  | .cut, _, h => by
    cases h
    rfl
  | .call q k, s, h => by
    rw [Prog.bind_call]
    simp only [Prog.run] at h ⊢
    split at h
    · exact run_bind_none h
    · cases h
      rfl

theorem Reifies.bind {f : α → SysM β} {g : α → SockM τ β} (hp : Reifies receive p m)
    (hf : ∀ a, Reifies receive (f a) (g a)) : Reifies receive (p.andThen f) (m >>= g) := by
  intro s
  change (p.bind _).run _ s = SockM.bind m g s
  rcases hrun : p.run (sysServe receive) s with ⟨_ | e | a, s'⟩
  · rw [run_bind_none hrun, SockM.bind, ← hp s, hrun]
  · rw [Prog.run_bind hrun, SockM.bind, ← hp s, hrun]
    rfl
  · rw [Prog.run_bind hrun, SockM.bind, ← hp s, hrun]
    exact hf a s'

theorem reifies_send (data : Bytes) : Reifies receive (SysM.send data) (sysSend receive data) := by
  intro s
  unfold SysM.send sysSend
  simp only [Prog.run, sysServe, sysSend]
  cases s.results with
  | nil => rfl
  | cons r rs => cases r <;> rfl

theorem reifies_recv (want : ℕ) :
    Reifies receive (SysM.recv want) (sysRecv want : SockM τ (Option Bytes)) := by
  intro s
  unfold SysM.recv sysRecv
  simp only [Prog.run, sysServe, sysRecv]
  cases s.results with
  | nil => rfl
  | cons r rs =>
    cases r with
    | none => rfl
    | some n => by_cases hinbox : s.inbox = [] <;> simp [hinbox, SysM.ret, Prog.run]

theorem reifies_sendLoop : ∀ (fuel : ℕ) (data : Bytes),
    Reifies receive (SysM.sendLoop fuel data) (sendLoop receive fuel data)
  | 0, _ => .pure ()
  | fuel + 1, data => by
    unfold SysM.sendLoop sendLoop
    split
    · exact .pure ()
    · refine (reifies_send data).bind fun r => ?_
      cases r with
      | none => exact .throw _
      | some n => exact reifies_sendLoop fuel (data.drop n)

theorem reifies_recvLoop (failure : Exn) : ∀ (fuel want : ℕ),
    Reifies receive (SysM.recvLoop failure fuel want) (recvLoop failure fuel want)
  | 0, _ => .pure []
  | fuel + 1, want => by
    unfold SysM.recvLoop recvLoop
    split
    · exact .pure []
    · refine (reifies_recv want).bind fun r => ?_
      cases r with
      | none => exact .throw _
      | some chunk => exact (reifies_recvLoop failure fuel _).bind fun rest => .pure _

theorem reifies_recvFragments : ∀ (fuel : ℕ) (record : Bytes),
    Reifies receive (SysM.recvFragments fuel record) (recvFragments fuel record)
  | 0, _ => fun _ => rfl
  | fuel + 1, record => by
    unfold SysM.recvFragments recvFragments
    refine (reifies_recvLoop _ 4 4).bind fun markBuf => ?_
    refine (reifies_recvLoop _ _ _).bind fun data => ?_
    split
    · exact .pure _
    · exact reifies_recvFragments fuel _

/-! ### The results that are left -/

theorem sysSend_results {data : Bytes} {r : Option ℕ} {s s' : Socket τ}
    (h : sysSend receive data s = (some (.ok r), s')) : s'.results.length < s.results.length := by
  unfold sysSend at h
  split at h
  · cases h
  · next rs hrs =>
    cases h
    rw [hrs]
    exact Nat.lt_succ_self _
  · next n rs hrs =>
    cases h
    rw [hrs]
    exact Nat.lt_succ_self _

theorem sysRecv_results {want : ℕ} {r : Option Bytes} {s s' : Socket τ}
    (h : sysRecv want s = (some (.ok r), s')) : s'.results.length < s.results.length := by
  unfold sysRecv at h
  split at h
  · cases h
  · next rs hrs =>
    cases h
    rw [hrs]
    exact Nat.lt_succ_self _
  · next n rs hrs =>
    split at h
    · cases h
    · cases h
      rw [hrs]
      exact Nat.lt_succ_self _

theorem sendLoop_results : ∀ {fuel : ℕ} {data : Bytes} {s s' : Socket τ},
    sendLoop receive fuel data s = (some (.ok ()), s') → s'.results.length ≤ s.results.length
  | 0, _, _, _, h => by
    obtain ⟨-, rfl⟩ := SockM.pure_ok.mp h
    exact Nat.le_refl _
  | fuel + 1, data, s, s', h => by
    unfold sendLoop at h
    split at h
    · obtain ⟨-, rfl⟩ := SockM.pure_ok.mp h
      exact Nat.le_refl _
    · obtain ⟨r, s₁, h₁, h₂⟩ := SockM.bind_ok.mp h
      cases r with
      | none => exact absurd h₂ SockM.throw_ok
      | some n => exact (sendLoop_results h₂).trans (sysSend_results h₁).le

theorem recvLoop_results {failure : Exn} : ∀ {fuel want : ℕ} {bs : Bytes} {s s' : Socket τ},
    recvLoop failure fuel want s = (some (.ok bs), s') →
      s'.results.length ≤ s.results.length ∧
        (fuel ≠ 0 → want ≠ 0 → s'.results.length < s.results.length)
  | 0, _, _, _, _, h => by
    obtain ⟨-, rfl⟩ := SockM.pure_ok.mp h
    exact ⟨Nat.le_refl _, fun hfuel => absurd rfl hfuel⟩
  | fuel + 1, want, bs, s, s', h => by
    unfold recvLoop at h
    split at h
    · next hwant =>
      obtain ⟨-, rfl⟩ := SockM.pure_ok.mp h
      exact ⟨Nat.le_refl _, fun _ h => absurd hwant h⟩
    · obtain ⟨r, s₁, h₁, h₂⟩ := SockM.bind_ok.mp h
      have hone := sysRecv_results h₁
      cases r with
      | none => exact absurd h₂ SockM.throw_ok
      | some chunk =>
        obtain ⟨rest, s₂, h₃, h₄⟩ := SockM.bind_ok.mp h₂
        obtain ⟨-, rfl⟩ := SockM.pure_ok.mp h₄
        have hlt := (recvLoop_results h₃).1.trans_lt hone
        exact ⟨hlt.le, fun _ _ => hlt⟩

/-- A fragment takes a result, so that any fuel above the results that are left is as good as any
other. -/
theorem recvFragments_fuel : ∀ {fuel fuel' : ℕ} {record : Bytes} {s : Socket τ},
    s.results.length < fuel → s.results.length < fuel' →
      recvFragments fuel record s = recvFragments fuel' record s
  | 0, _, _, _, h, _ => absurd h (Nat.not_lt_zero _)
  | _ + 1, 0, _, _, _, h => absurd h (Nat.not_lt_zero _)
  | fuel + 1, fuel' + 1, record, s, h, h' => by
    unfold recvFragments
    change SockM.bind _ _ s = SockM.bind _ _ s
    unfold SockM.bind
    rcases hmark : recvExactly (.runtimeError "recv() record mark failed") 4 s with ⟨_ | _ | bs, s₁⟩
    · rfl
    · rfl
    · have hlt : s₁.results.length < s.results.length :=
        (recvLoop_results hmark).2 (by decide) (by decide)
      change SockM.bind _ _ s₁ = SockM.bind _ _ s₁
      unfold SockM.bind
      rcases hdata : recvExactly (.runtimeError "recv() record data failed")
        (assemble32 bs &&& 0x7FFFFFFF).toNat s₁ with ⟨_ | _ | data, s₂⟩
      · rfl
      · rfl
      · have hle := (recvLoop_results hdata).1
        simp only []
        split
        · rfl
        · exact recvFragments_fuel (by omega) (by omega)

/-- **One piece of code.** On a socket the program of system calls does what `exchange` does. -/
theorem exchange_run {fuel : ℕ} {s : Socket τ} (h : s.results.length < fuel) (framed : Bytes) :
    (SysM.exchange fuel framed).run (sysServe receive) s = exchange receive framed s := by
  have hreify : Reifies receive (SysM.exchange fuel framed) (sendAll receive framed >>= fun _ =>
      recvFragments fuel []) :=
    (reifies_sendLoop _ _).bind fun _ => reifies_recvFragments fuel []
  rw [hreify s]
  change SockM.bind _ _ s = SockM.bind _ _ s
  unfold SockM.bind
  rcases hsend : sendAll receive framed s with ⟨_ | _ | _, s'⟩
  · rfl
  · rfl
  · have hle : s'.results.length ≤ s.results.length := sendLoop_results hsend
    exact recvFragments_fuel (hle.trans_lt h) (Nat.lt_succ_self _)

end

end NfsClient
