import NfsClient.Lib.Atomicity
import NfsClient.Rpc.Service
import NfsClient.Rpc.SystemCalls

/-!
# Clients that run at once

Each client has a connection of its own to one server. A connection has two buffers (`Connection`):
what has been sent and makes up no request that the server has handled, and what the server has
written and the client has not read. A `send()` transfers any part of what it is offered, at least one
byte, and a `recv()` any part of what is there (`SysStep`); the server handles a complete request on
any connection at any time (`Handles`). What is slow on the way there or back is no step of its own: a
byte that takes its time is one that the other end has not looked at yet.

`requests_are_atomic` says that none of this shows. However the system calls of all clients and the work
of the server are interleaved, the run is one in which every request is answered in one step.
-/

namespace NfsClient

open Xdr Interaction

variable {τ α β : Type}

/-- What is under way on a connection. -/
structure Connection where
  pending : Bytes
  inbox : Bytes

/-- A connection with nothing under way. -/
def Connection.quiet : Connection := ⟨[], []⟩

/-- A system call that succeeds: some of the bytes are transferred, and at least one. -/
inductive SysStep : Step SysCall SysResult Connection
  | send {data : Bytes} {n : ℕ} {l : Connection} (hpos : 1 ≤ n) (hn : n ≤ data.length) :
      SysStep l (.send data) (.sent n) { l with pending := l.pending ++ data.take n }
  | recv {want n : ℕ} {l : Connection} (hpos : 1 ≤ n) (hwant : n ≤ want) (hn : n ≤ l.inbox.length) :
      SysStep l (.recv want) (.received (l.inbox.take n)) { l with inbox := l.inbox.drop n }

/-- The server takes a complete request from a connection and writes its answer. -/
def Handles (srv : Service τ) (x y : Connection × τ) : Prop :=
  ∃ msg rest, takeRecord x.1.pending.length x.1.pending = some (msg, rest) ∧
    y = (⟨rest, x.1.inbox ++ (srv.answer x.2 msg).1.bytes⟩, (srv.answer x.2 msg).2)

/-- A request, seen as one step: the record that comes back is the server's answer. -/
def AnsweredAtOnce (srv : Service τ) : Step RpcRequest Received τ := fun t q r t' =>
  r = .ok (srv.answer t q.message).1.record ∧ t' = (srv.answer t q.message).2

/-- The message fits the length of a record mark. -/
def RpcRequest.HasRoom (q : RpcRequest) : Prop := q.message.length < 2 ^ 31

/-- No answer comes in more fragments before the last. -/
def Service.InFragments (srv : Service τ) (fuel : ℕ) : Prop :=
  ∀ t (q : RpcRequest), q.HasRoom → (srv.answer t q.message).1.fragments.length ≤ fuel

/-! ### Programs that read -/

/-- There is something to read, and the program does. -/
def CanRead (l : Connection) (f : SysCall) : Prop :=
  ∃ want, f = .recv want ∧ 0 < want ∧ l.inbox ≠ []

/-- The program reads everything in the inbox, and ends with `r`. -/
def ReadsTo (r : Except Exn α) (p : SysM α) (l : Connection) : Prop :=
  twp SysStep CanRead (fun r' l' => r' = r ∧ l' = .quiet) p l

theorem SysM.andThen_assoc {γ : Type} (m : SysM α) (f : α → SysM β) (g : β → SysM γ) :
    (m.andThen f).andThen g = m.andThen fun a => (f a).andThen g := by
  induction m with
  | done r => cases r <;> rfl
  | cut => rfl
  | call q k ih => exact congrArg (Prog.call q) (funext ih)

/-- **The rule of reading.** Reading takes the next bytes, however they come in. -/
theorem readsTo_recvLoop {r : Except Exn α} {failure : Exn} {tail : Bytes} :
    ∀ {fuel : ℕ} {bs : Bytes} {f : Bytes → SysM α}, bs.length ≤ fuel →
      ReadsTo r (f bs) ⟨[], tail⟩ →
      ReadsTo r ((SysM.recvLoop failure fuel bs.length).andThen f) ⟨[], bs ++ tail⟩
  | 0, bs, f, hfuel, h => by
    obtain rfl := List.length_eq_zero_iff.mp (Nat.le_zero.mp hfuel)
    exact h
  | fuel + 1, bs, f, hfuel, h => by
    unfold SysM.recvLoop
    by_cases hwant : bs.length = 0
    · obtain rfl := List.length_eq_zero_iff.mp hwant
      exact h
    · rw [if_neg hwant]
      have hpos : 0 < bs.length := Nat.pos_of_ne_zero hwant
      refine ⟨⟨bs.length, rfl, hpos, ?_⟩, ?_⟩
      · exact List.append_ne_nil_of_left_ne_nil (List.ne_nil_of_length_pos hpos) _
      · rintro g l' hstep
        cases hstep with
        | @recv _ n _ hn hle _ =>
          -- the chunk is the first `n` bytes of what is wanted
          have htake : (bs ++ tail).take n = bs.take n := List.take_append_of_le_length hle
          have hdrop : (bs ++ tail).drop n = bs.drop n ++ tail := List.drop_append_of_le_length hle
          have hlen : (bs.take n).length = n := List.length_take_of_le hle
          have hrest : (bs.drop n).length = bs.length - n := List.length_drop
          show ReadsTo r (((SysM.recvLoop failure fuel (bs.length - ((bs ++ tail).take n).length)).andThen
            fun rest => SysM.ret ((bs ++ tail).take n ++ rest)).andThen f) ⟨[], (bs ++ tail).drop n⟩
          rw [htake, hdrop, hlen, ← hrest, SysM.andThen_assoc]
          refine readsTo_recvLoop (by omega) ?_
          show ReadsTo r (f (bs.take n ++ bs.drop n)) ⟨[], tail⟩
          rw [List.take_append_drop]
          exact h

theorem readsTo_recvExactly {r : Except Exn α} {want : ℕ} {f : Bytes → SysM α} {tail : Bytes}
    (failure : Exn) (bs : Bytes) (hlen : bs.length = want) (h : ReadsTo r (f bs) ⟨[], tail⟩) :
    ReadsTo r ((SysM.recvExactly failure want).andThen f) ⟨[], bs ++ tail⟩ := by
  subst hlen
  exact readsTo_recvLoop (le_refl _) h

/-- The fragments of a record are read one after the other. -/
theorem readsTo_recvFragments {last : Bytes} (hlast : last.length < 2 ^ 31) :
    ∀ {frags : List Bytes} {fuel : ℕ} (record : Bytes), (∀ f ∈ frags, f.length < 2 ^ 31) →
      frags.length ≤ fuel →
      ReadsTo (.ok (record ++ (frags.flatten ++ last))) (SysM.recvFragments (fuel + 1) record)
        ⟨[], frags.flatMap fragmentBytes ++ lastFragmentBytes last⟩
  | [], fuel, record, _, _ => by
    -- the mark says that it is the last one, and how long it is
    have hflag : UInt32.ofNat (2 ^ 31 + last.length) &&& 0x80000000 ≠ 0 := by
      rw [Ne, and_flag_eq_zero_iff, toNat_ofNat_of_lt (by omega)]
      omega
    have hlen : (UInt32.ofNat (2 ^ 31 + last.length) &&& 0x7FFFFFFF).toNat = last.length := by
      rw [toNat_and_lengthMask, toNat_ofNat_of_lt (by omega)]
      omega
    unfold SysM.recvFragments
    show ReadsTo _ _ ⟨[], word _ ++ last⟩
    refine readsTo_recvExactly _ _ (length_word _) ?_
    simp only [assemble32_word, hlen, if_pos hflag]
    have hend : ReadsTo (.ok (record ++ last)) (SysM.ret (record ++ last)) ⟨[], []⟩ := ⟨rfl, rfl⟩
    have hdata := readsTo_recvExactly (.runtimeError "recv() record data failed") last rfl
      (f := fun data => SysM.ret (record ++ data)) hend
    rwa [List.append_nil] at hdata
  | f :: frags, fuel + 1, record, hshort, hfuel => by
    have hf : f.length < 2 ^ 31 := hshort f List.mem_cons_self
    -- the mark has no flag, so that its value is the length
    have hflag : ¬ UInt32.ofNat f.length &&& 0x80000000 ≠ 0 := by
      rw [not_not, and_flag_eq_zero_iff, toNat_ofNat_of_lt (by omega)]
      exact hf
    have hlen : (UInt32.ofNat f.length &&& 0x7FFFFFFF).toNat = f.length := by
      rw [toNat_and_lengthMask, toNat_ofNat_of_lt (by omega)]
      omega
    have hrest := readsTo_recvFragments hlast (record ++ f)
      (fun g hg => hshort g (List.mem_cons_of_mem f hg)) (Nat.le_of_succ_le_succ hfuel)
    rw [List.flatten_cons, List.flatMap_cons, List.append_assoc, List.append_assoc, fragmentBytes,
      List.append_assoc]
    rw [List.append_assoc] at hrest
    unfold SysM.recvFragments
    refine readsTo_recvExactly _ _ (length_word _) ?_
    simp only [assemble32_word, hlen, if_neg hflag]
    exact readsTo_recvExactly _ f rfl hrest

theorem readsTo_reply {fuel : ℕ} (reply : FramedReply) (h : reply.fragments.length ≤ fuel) :
    ReadsTo (.ok reply.record) (SysM.recvFragments (fuel + 1) []) ⟨[], reply.bytes⟩ :=
  readsTo_recvFragments reply.last_short [] reply.fragments_short h

/-! ### The protocol of a connection -/

/-- A whole request is taken, and leaves nothing. -/
theorem takeRecord_whole {msg : Bytes} (h : msg.length < 2 ^ 31) :
    takeRecord (lastFragmentBytes msg).length (lastFragmentBytes msg) = some (msg, []) := by
  have htake : takeRecord (3 + msg.length + 1) (lastFragmentBytes msg ++ []) = some (msg, []) :=
    takeRecord_lastFragment h _
  rw [List.append_nil] at htake
  rwa [length_lastFragmentBytes, show 4 + msg.length = 3 + msg.length + 1 by omega]

/-- What is left of a request: `rest` is not sent yet. -/
def sending (fuel limit : ℕ) (rest : Bytes) : SysM Bytes :=
  (SysM.sendLoop limit rest).andThen fun _ => SysM.recvFragments (fuel + 1) []

theorem sending_nil (fuel limit : ℕ) : sending fuel limit [] = SysM.recvFragments (fuel + 1) [] := by
  unfold sending
  cases limit <;> rfl

theorem sending_cons (fuel limit : ℕ) {rest : Bytes} (h : rest ≠ []) :
    sending fuel (limit + 1) rest = .call (.send rest) fun
      | .sent n => sending fuel limit (rest.drop n)
      | _ => SysM.throw (.runtimeError "send() failed") := by
  unfold sending
  rw [SysM.sendLoop, if_neg h]
  refine congrArg (Prog.call _) (funext fun r => ?_)
  cases r <;> rfl

/-- A request is under way: some of it is sent, and nothing has come back. -/
structure Waiting (fuel : ℕ) (q : RpcRequest) (n : ℕ) (m : SysM Bytes) (l : Connection) : Prop where
  room : q.HasRoom
  inbox : l.inbox = []
  rest : ∃ limit rest, m = sending fuel limit rest ∧ rest.length ≤ limit ∧ n = rest.length ∧
    l.pending ++ rest = lastFragmentBytes q.message ∧ (l.pending = [] → limit = rest.length)

theorem Waiting.call {fuel n : ℕ} {q : RpcRequest} {m : SysM Bytes} {l : Connection}
    (h : Waiting fuel q n m l) : ∃ f k, m = .call f k := by
  obtain ⟨limit, rest, rfl, hlimit, -⟩ := h.rest
  by_cases hrest : rest = []
  · subst hrest
    rw [sending_nil]
    exact ⟨_, _, rfl⟩
  · cases limit with
    | zero => exact absurd (List.length_eq_zero_iff.mp (Nat.le_zero.mp hlimit)) hrest
    | succ limit =>
      rw [sending_cons fuel limit hrest]
      exact ⟨_, _, rfl⟩

/-- Only a `send()` is possible, and it leaves less to be sent. -/
theorem Waiting.step {fuel n : ℕ} {q : RpcRequest} {f : SysCall} {k : SysResult → SysM Bytes}
    {l l' : Connection} {g : SysResult} (h : Waiting fuel q n (.call f k) l) (hsys : SysStep l f g l') :
    ∃ n' < n, Waiting fuel q n' (k g) l' := by
  obtain ⟨limit, rest, hm, hlimit, rfl, hsplit, -⟩ := h.rest
  by_cases hrest : rest = []
  · -- everything is sent, and there is nothing to read
    subst hrest
    rw [sending_nil] at hm
    obtain ⟨rfl, -⟩ := Prog.call.inj hm
    cases hsys with
    | recv hpos hwant hn =>
      rw [h.inbox, List.length_nil] at hn
      omega
  · cases limit with
    | zero => exact absurd (List.length_eq_zero_iff.mp (Nat.le_zero.mp hlimit)) hrest
    | succ limit =>
      rw [sending_cons fuel limit hrest] at hm
      obtain ⟨rfl, rfl⟩ := Prog.call.inj hm
      cases hsys with
      | @send _ n _ hpos hn =>
        have hlength : (rest.drop n).length = rest.length - n := List.length_drop
        have hsent : rest.take n ≠ [] := by
          rw [Ne, List.take_eq_nil_iff]
          rintro (rfl | rfl)
          · omega
          · exact hrest rfl
        refine ⟨(rest.drop n).length, by omega, h.room, h.inbox, limit, _, rfl, by omega, rfl, ?_, ?_⟩
        · show l.pending ++ rest.take n ++ rest.drop n = lastFragmentBytes q.message
          rw [List.append_assoc, List.take_append_drop, hsplit]
        · exact fun hnil => absurd (List.append_eq_nil_iff.mp hnil).2 hsent

/-- The server takes the request when all of it has been sent, and no earlier. -/
theorem Waiting.handled {srv : Service τ} {fuel n : ℕ} (hfuel : srv.InFragments fuel) {q : RpcRequest}
    {m : SysM Bytes} {l l' : Connection} {t t' : τ} (h : Waiting fuel q n m l)
    (hhandle : Handles srv (l, t) (l', t')) :
    ∃ r, AnsweredAtOnce srv t q r t' ∧ l'.pending = [] ∧ ReadsTo r m l' := by
  obtain ⟨limit, rest, rfl, -, -, hsplit, -⟩ := h.rest
  obtain ⟨msg, behind, htake, heq⟩ := hhandle
  obtain ⟨rfl, rfl⟩ := Prod.mk.inj heq
  by_cases hrest : rest = []
  · subst hrest
    obtain ⟨rfl, rfl⟩ : msg = q.message ∧ behind = [] := by
      rw [List.append_nil] at hsplit
      rw [hsplit, takeRecord_whole h.room] at htake
      cases htake
      exact ⟨rfl, rfl⟩
    refine ⟨.ok (srv.answer t q.message).1.record, ⟨rfl, rfl⟩, rfl, ?_⟩
    rw [sending_nil]
    show ReadsTo _ _ ⟨[], l.inbox ++ (srv.answer t q.message).1.bytes⟩
    rw [h.inbox, List.nil_append]
    exact readsTo_reply _ (hfuel t q h.room)
  · rw [takeRecord_incomplete h.room hsplit hrest] at htake
    cases htake

theorem Waiting.live {srv : Service τ} {fuel n : ℕ} {q : RpcRequest} {f : SysCall}
    {k : SysResult → SysM Bytes} {l : Connection} (h : Waiting fuel q n (.call f k) l) :
    (∃ g l', SysStep l f g l') ∨ ∀ t, ∃ l' t', Handles srv (l, t) (l', t') := by
  obtain ⟨limit, rest, hm, hlimit, rfl, hsplit, -⟩ := h.rest
  by_cases hrest : rest = []
  · subst hrest
    right
    intro t
    rw [List.append_nil] at hsplit
    refine ⟨_, _, q.message, [], ?_, rfl⟩
    show takeRecord l.pending.length l.pending = some (q.message, [])
    rw [hsplit, takeRecord_whole h.room]
  · left
    cases limit with
    | zero => exact absurd (List.length_eq_zero_iff.mp (Nat.le_zero.mp hlimit)) hrest
    | succ limit =>
      rw [sending_cons fuel limit hrest] at hm
      obtain ⟨rfl, -⟩ := Prog.call.inj hm
      exact ⟨_, _, .send (le_refl 1) (List.length_pos_iff.mpr hrest)⟩

/-- Only a `recv()` is possible, and it leaves less to be read. -/
theorem ReadsTo.step {r : Received} {f : SysCall} {k : SysResult → SysM Bytes} {l l' : Connection}
    {g : SysResult} (h : ReadsTo r (.call f k) l) (hsys : SysStep l f g l') :
    l'.pending = l.pending ∧ l'.inbox.length < l.inbox.length ∧ ReadsTo r (k g) l' := by
  obtain ⟨⟨want, rfl, hwant, hinbox⟩, hnext⟩ := h
  have hrest := hnext g l' hsys
  cases hsys with
  | @recv _ n _ hpos _ hn =>
    refine ⟨rfl, ?_, hrest⟩
    show (l.inbox.drop n).length < l.inbox.length
    rw [List.length_drop]
    omega

/-- The channel of a client is the protocol under which its requests are atomic. -/
def connection (srv : Service τ) {fuel : ℕ} (hfuel : srv.InFragments fuel) :
    Protocol SysStep (Handles srv) (AnsweredAtOnce srv)
      (fun q => SysM.exchange (fuel + 1) q.framed) RpcRequest.HasRoom where
  idle l := l = .quiet
  waiting := Waiting fuel
  answered r n m l := l.pending = [] ∧ n = l.inbox.length ∧ ReadsTo r m l
  idle_start := by
    rintro q _ hroom rfl
    refine ⟨_, hroom, rfl, _, q.framed, rfl, le_refl _, rfl, ?_, fun _ => rfl⟩
    rw [RpcRequest.framed, addRecordMark_eq hroom]
    rfl
  idle_handle := by
    rintro _ t x rfl ⟨msg, rest, htake, -⟩
    rw [show Connection.quiet.pending = [] from rfl, takeRecord_nil] at htake
    cases htake
  waiting_idle := by
    rintro q n m _ h rfl
    obtain ⟨limit, rest, rfl, -, -, hsplit, hlimit⟩ := h.rest
    obtain rfl : rest = q.framed := by
      rw [RpcRequest.framed, addRecordMark_eq h.room]
      exact hsplit
    rw [hlimit rfl]
    rfl
  waiting_call := Waiting.call
  waiting_step := Waiting.step
  waiting_handle := by
    intro q n m l t l' t' h hhandle
    obtain ⟨r, hanswered, hpending, hreads⟩ := h.handled hfuel hhandle
    exact ⟨r, _, hanswered, hpending, rfl, hreads⟩
  waiting_live := Waiting.live
  answered_idle := by
    rintro r n f k _ ⟨-, -, ⟨want, rfl, hwant, hinbox⟩, -⟩ rfl
    exact hinbox rfl
  answered_done := by
    rintro r n r' l ⟨-, -, rfl, rfl⟩
    exact ⟨rfl, rfl⟩
  answered_cut := by
    rintro r n l ⟨-, -, h⟩
    exact h
  answered_step := by
    rintro r n f k l g l' ⟨hpending, rfl, h⟩ hsys
    obtain ⟨hkept, hless, hnext⟩ := h.step hsys
    exact ⟨_, hless, hkept.trans hpending, rfl, hnext⟩
  answered_handle := by
    rintro r n m l t x ⟨hpending, -, -⟩ ⟨msg, rest, htake, -⟩
    rw [show (l, t).1.pending = [] from hpending, takeRecord_nil] at htake
    cases htake
  answered_live := by
    rintro r n f k l ⟨-, -, ⟨want, rfl, hwant, hinbox⟩, -⟩
    exact ⟨_, _, .recv (le_refl 1) hwant (List.length_pos_iff.mpr hinbox)⟩

/-! ### Clients -/

/-- Clients that are under way, each with its connection, and the state of the server. -/
abbrev Clients (ι τ α : Type) : Type := Wired ι SysCall SysResult Connection τ α

namespace Clients

variable {ι : Type}

/-- A client makes a system call, or the server handles a request. -/
def Step [DecidableEq ι] (srv : Service τ) (w w' : Clients ι τ α) : Prop :=
  ∃ i, WiredStep SysStep (Handles srv) i w w'

/-- Clients that begin, on new connections. -/
def start (fuel : ℕ) (progs : ι → Prog RpcRequest Received α) (t : τ) : Clients ι τ α :=
  ⟨fun i => (progs i).expand fun q => SysM.exchange (fuel + 1) q.framed, fun _ => .quiet, t⟩

/-- Seen request by request, where nothing is under way on its connection a client has got to the same
place, and so has the server. A client that has ended has done so with the same value. -/
structure SameAs (fuel : ℕ) (w : Clients ι τ α) (x : (ι → Prog RpcRequest Received α) × τ) : Prop where
  server : w.server = x.2
  between : ∀ i, w.channels i = .quiet →
    w.progs i = (x.1 i).expand fun q => SysM.exchange (fuel + 1) q.framed
  done : ∀ i a, w.progs i = .done a → x.1 i = .done a ∧ w.channels i = .quiet
  cut : ∀ i, w.progs i = .cut → x.1 i = .cut

section

variable [DecidableEq ι] {srv : Service τ} {fuel : ℕ} {progs : ι → Prog RpcRequest Received α} {t : τ}

/-- From afar a run is one of atomic requests, if each of these fits a record. -/
theorem simulated (hfuel : srv.InFragments fuel)
    (hasks : AsksOnly (AnsweredAtOnce srv) RpcRequest.HasRoom (progs, t)) :
    Simulated (Step srv) (AtomicStep (AnsweredAtOnce srv)) (SameAs fuel) (start fuel progs t) (progs, t) := by
  have hidle : ∀ _ : ι, (connection srv hfuel).idle .quiet := fun _ => rfl
  refine ((connection srv hfuel).simulated hasks hidle).mono fun w x h => ?_
  exact ⟨h.server, h.between, h.done, h.cut⟩

theorem terminates [Finite ι] (hfuel : srv.InFragments fuel)
    (hasks : AsksOnly (AnsweredAtOnce srv) RpcRequest.HasRoom (progs, t)) :
    Acc (fun w' w => Step srv w w') (start fuel progs t) :=
  (connection srv hfuel).run_terminates hasks fun _ => rfl

theorem live (hfuel : srv.InFragments fuel)
    (hasks : AsksOnly (AnsweredAtOnce srv) RpcRequest.HasRoom (progs, t)) {w : Clients ι τ α}
    (hrun : Relation.ReflTransGen (Step srv) (start fuel progs t) w) (i : ι) :
    (∃ a, w.progs i = .done a) ∨ w.progs i = .cut ∨ ∃ w', WiredStep SysStep (Handles srv) i w w' :=
  (connection srv hfuel).run_live hasks (fun _ => rfl) hrun i

end

end Clients

/-- **Requests are atomic.** Clients of one server, each on its own connection, whatever parts of the
bytes their system calls transfer and in whatever order they and the server get on: step by step the run
is one in which every request is answered at once. No run goes on forever, and in none is a client stuck. -/
theorem requests_are_atomic {ι : Type} [DecidableEq ι] [Finite ι] {srv : Service τ} {fuel : ℕ}
    (hfuel : srv.InFragments fuel) {progs : ι → Prog RpcRequest Received α}
    (hasks : ∀ i, (progs i).Asks (AnsweredAtOnce srv) RpcRequest.HasRoom) (t : τ) :
    Simulated (Clients.Step srv) (AtomicStep (AnsweredAtOnce srv)) (Clients.SameAs fuel)
        (Clients.start fuel progs t) (progs, t) ∧
      Acc (fun w' w => Clients.Step srv w w') (Clients.start fuel progs t) ∧
      ∀ w, Relation.ReflTransGen (Clients.Step srv) (Clients.start fuel progs t) w →
        ∀ i, (∃ a, w.progs i = .done a) ∨ w.progs i = .cut ∨
          ∃ w', WiredStep SysStep (Handles srv) i w w' := by
  have hall := asksOnly_of_asks hasks t
  exact ⟨Clients.simulated hfuel hall, Clients.terminates hfuel hall,
    fun _ hrun => Clients.live hfuel hall hrun⟩

/-- A server that answers its `n`-th request with the one-byte result `n`. -/
def countingService : Service ℕ where
  answer n msg := (countingServer.answer n msg, n + 1)

/-- A program that makes a NULL call, and ends with what comes back. -/
def nullProgram : Prog RpcRequest Received Received :=
  .call ⟨2049, 1, 100003, 4, 0, [], none⟩ .done

theorem nullProgram_asks : nullProgram.Asks (AnsweredAtOnce countingService) RpcRequest.HasRoom := by
  refine (wp_call _ _ _).mpr ⟨nullCall_fits [] 1, ?_⟩
  exact fun _ _ _ => trivial

/-- Two programs at once on the server that counts. -/
theorem two_clients_atomic :
    Simulated (Clients.Step countingService) (AtomicStep (AnsweredAtOnce countingService)) (Clients.SameAs 0)
        (Clients.start 0 (fun _ : Bool => nullProgram) 0) (fun _ => nullProgram, 0) ∧
      Acc (fun w' w => Clients.Step countingService w w')
        (Clients.start 0 (fun _ : Bool => nullProgram) 0) ∧
      ∀ w, Relation.ReflTransGen (Clients.Step countingService)
          (Clients.start 0 (fun _ : Bool => nullProgram) 0) w →
        ∀ i, (∃ a, w.progs i = .done a) ∨ w.progs i = .cut ∨
          ∃ w', WiredStep SysStep (Handles countingService) i w w' :=
  requests_are_atomic (fun _ _ _ => Nat.le_refl 0) (fun _ => nullProgram_asks) 0

end NfsClient
