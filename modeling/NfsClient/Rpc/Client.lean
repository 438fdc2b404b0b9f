import NfsClient.Lib.Interaction
import NfsClient.Rpc.Message

/-!
# TcpRpcClient as a program

`TcpRpcClient::call` numbers a request, sends it and parses the record that comes back. What is
between the request and the record (`sendAll`, the server, `recvRecord`) is the environment of the
program: it hands back a record, or the exception that one of the two threw. `Rpc/Socket` opens
this environment up to the level of single `send()` and `recv()` calls.

`ClientM σ α` is a method of an object with fields `σ` that uses such clients: it may send
requests, and it returns a value or throws. The fields it has changed stay changed when it
throws, as in the source.
-/

namespace NfsClient

open Xdr Interaction

/-- What one call puts on the wire, before it is encoded. -/
structure RpcRequest where
  /-- The server port of the connection. -/
  port : UInt16
  xid : UInt32
  prog : UInt32
  vers : UInt32
  proc : UInt32
  args : Bytes
  auth : Option AuthSys
  deriving DecidableEq, Repr

/-- The CALL message of a request. -/
def RpcRequest.message (q : RpcRequest) : Bytes :=
  buildCallMessage q.xid q.prog q.vers q.proc q.args q.auth

/-- The bytes handed to `sendAll`. -/
def RpcRequest.framed (q : RpcRequest) : Bytes := addRecordMark q.message

/-- What `sendAll` and `recvRecord` come to: the record received, or an exception. -/
abbrev Received : Type := Except Exn Bytes

/-! ### Methods -/

/-- A method of an object with fields `σ`. -/
def ClientM (σ α : Type) : Type := σ → Prog RpcRequest Received (Except Exn α × σ)

namespace ClientM

variable {σ α β : Type}

/-- `return a;` -/
protected def pure (a : α) : ClientM σ α := fun c => .done (.ok a, c)

/-- Statements in sequence: an exception leaves the method. -/
protected def bind (m : ClientM σ α) (f : α → ClientM σ β) : ClientM σ β := fun c =>
  (m c).bind fun rc =>
    match rc.1 with
    | .ok a => f a rc.2
    | .error e => .done (.error e, rc.2)

instance : Monad (ClientM σ) where
  pure := ClientM.pure
  bind := ClientM.bind

/-- `throw e;` -/
def throw (e : Exn) : ClientM σ α := fun c => .done (.error e, c)

/-- The method goes on beyond the fuel that it was given. -/
def cut : ClientM σ α := fun _ => .cut

/-- The fields of the object. -/
def fields : ClientM σ σ := fun c => .done (.ok c, c)

/-- Assignment to the fields of the object. -/
def assign (f : σ → σ) : ClientM σ Unit := fun c => .done (.ok (), f c)

/-- A call on a member object: `get` is the member, `set` puts it back. -/
def onMember {τ : Type} (get : σ → τ) (set : τ → σ → σ) (m : ClientM τ α) : ClientM σ α := fun c =>
  (m (get c)).bind fun rt => .done (rt.1, set rt.2 c)

/-- A call on a local object `o`, which is handed back with the result. -/
def onLocal {τ : Type} (o : τ) (m : ClientM τ α) : ClientM σ (α × τ) := fun c =>
  (m o).bind fun rt => .done (rt.1.map (·, rt.2), c)

/-- `XdrDecoder dec(bytes);` followed by the decoding calls `d`. -/
def decode (d : XdrDecoder α) (bytes : Bytes) : ClientM σ α := fun c =>
  match d bytes with
  | .ok (a, _) => .done (.ok a, c)
  | .error e => .done (.error e, c)

/-- A method that begins with one call goes on from what comes of it. -/
theorem bind_of_call {m : ClientM σ α} {f : α → ClientM σ β} {c c' : σ} {q : RpcRequest}
    {result : Received → Except Exn α} (h : m c = .call q fun r => .done (result r, c')) :
    (m >>= f) c = .call q fun r =>
      match result r with
      | .ok a => f a c'
      | .error e => .done (.error e, c') := by
  change (m c).bind _ = _
  rw [h]
  rfl

end ClientM

/-! ### Weakest preconditions of methods -/

section wpM

variable {σ α β S : Type} {step : Step RpcRequest Received S} {ok : S → RpcRequest → Prop}

/-- `wp` of a method: the postcondition speaks about the result, the fields and the
environment. -/
def wpM (step : Step RpcRequest Received S) (ok : S → RpcRequest → Prop)
    (post : Except Exn α → σ → S → Prop) (m : ClientM σ α) (c : σ) (s : S) : Prop :=
  wp step ok (fun rc s' => post rc.1 rc.2 s') (m c) s

variable {post post' : Except Exn α → σ → S → Prop} {c : σ} {s : S}

@[simp] theorem wpM_pure (a : α) : wpM step ok post (pure a) c s ↔ post (.ok a) c s := Iff.rfl

@[simp] theorem wpM_throw (e : Exn) :
    wpM step ok post (ClientM.throw e) c s ↔ post (.error e) c s := Iff.rfl

@[simp] theorem wpM_cut : wpM step ok post ClientM.cut c s := trivial

@[simp] theorem wpM_fields {post : Except Exn σ → σ → S → Prop} :
    wpM step ok post ClientM.fields c s ↔ post (.ok c) c s := Iff.rfl

@[simp] theorem wpM_assign {post : Except Exn Unit → σ → S → Prop} (f : σ → σ) :
    wpM step ok post (ClientM.assign f) c s ↔ post (.ok ()) (f c) s := Iff.rfl

theorem wpM_mono (h : ∀ r c s, post r c s → post' r c s) {m : ClientM σ α}
    (hm : wpM step ok post m c s) : wpM step ok post' m c s := by
  refine wp_mono ?_ hm
  rintro ⟨r, c'⟩ s' h'
  exact h r c' s' h'

theorem wpM_bind {post : Except Exn β → σ → S → Prop} {m : ClientM σ α} {f : α → ClientM σ β} :
    wpM step ok post (m >>= f) c s ↔
      wpM step ok (fun r c' s' =>
        match r with
        | .ok a => wpM step ok post (f a) c' s'
        | .error e => post (.error e) c' s') m c s := by
  refine wp_bind.trans ⟨fun h => wp_mono ?_ h, fun h => wp_mono ?_ h⟩
  all_goals
    rintro ⟨r, c'⟩ s' h'
    cases r <;> exact h'

theorem wpM_fields_bind {post : Except Exn β → σ → S → Prop} {f : σ → ClientM σ β} :
    wpM step ok post (ClientM.fields >>= f) c s ↔ wpM step ok post (f c) c s := wpM_bind

theorem wpM_assign_bind {post : Except Exn β → σ → S → Prop} {g : σ → σ}
    {f : Unit → ClientM σ β} :
    wpM step ok post (ClientM.assign g >>= f) c s ↔ wpM step ok post (f ()) (g c) s := wpM_bind

theorem wpM_onMember {τ : Type} {get : σ → τ} {set : τ → σ → σ} {m : ClientM τ α} :
    wpM step ok post (ClientM.onMember get set m) c s ↔
      wpM step ok (fun r t s' => post r (set t c) s') m (get c) s := wp_bind

theorem wpM_onLocal {τ : Type} {post : Except Exn (α × τ) → σ → S → Prop} {o : τ}
    {m : ClientM τ α} :
    wpM step ok post (ClientM.onLocal o m) c s ↔
      wpM step ok (fun r t s' => post (r.map (·, t)) c s') m o s := wp_bind

/-- Decoding changes neither the fields nor the environment. -/
theorem wpM_decode {d : XdrDecoder α} {bytes : Bytes} :
    wpM step ok post (ClientM.decode d bytes) c s ↔
      post ((d bytes).map Prod.fst) c s := by
  unfold wpM ClientM.decode
  cases d bytes with
  | ok a => exact Iff.rfl
  | error e => exact Iff.rfl

/-- What a method can send, as a precondition. -/
theorem ClientM.sends_iff {P : List Received → RpcRequest → Prop} {m : ClientM σ α} {c : σ}
    {h : List Received} :
    (m c).Sends P h ↔ wpM anyAnswer P (fun _ _ _ => True) m c h := Prog.sends_iff

end wpM

section twpM

variable {σ α β S : Type} {step : Step RpcRequest Received S} {ok : S → RpcRequest → Prop}
  {c : σ} {s : S}

/-- `twp` of a method. -/
def twpM (step : Step RpcRequest Received S) (ok : S → RpcRequest → Prop)
    (post : Except Exn α → σ → S → Prop) (m : ClientM σ α) (c : σ) (s : S) : Prop :=
  twp step ok (fun rc s' => post rc.1 rc.2 s') (m c) s

theorem twpM_mono {post post' : Except Exn α → σ → S → Prop}
    (h : ∀ r c s, post r c s → post' r c s) {m : ClientM σ α} (hm : twpM step ok post m c s) :
    twpM step ok post' m c s := by
  refine twp_mono ?_ hm
  rintro ⟨r, c'⟩ s' h'
  exact h r c' s' h'

theorem twpM_bind {post : Except Exn β → σ → S → Prop} {m : ClientM σ α} {f : α → ClientM σ β} :
    twpM step ok post (m >>= f) c s ↔
      twpM step ok (fun r c' s' =>
        match r with
        | .ok a => twpM step ok post (f a) c' s'
        | .error e => post (.error e) c' s') m c s := by
  refine twp_bind.trans ⟨fun h => twp_mono ?_ h, fun h => twp_mono ?_ h⟩
  all_goals
    rintro ⟨r, c'⟩ s' h'
    cases r <;> exact h'

theorem twpM_onMember {τ : Type} {post : Except Exn α → σ → S → Prop} {get : σ → τ}
    {set : τ → σ → σ} {m : ClientM τ α} :
    twpM step ok post (ClientM.onMember get set m) c s ↔
      twpM step ok (fun r t s' => post r (set t c) s') m (get c) s := twp_bind

end twpM

/-! ### TcpRpcClient -/

/-- The fields of `TcpRpcClient`; the socket is the environment's. -/
structure TcpRpcClient where
  port : UInt16
  xid_ : UInt32
  auth_sys_ : Option AuthSys
  deriving DecidableEq, Repr

namespace TcpRpcClient

/-- A connected client. -/
def connect (port : UInt16) : TcpRpcClient := ⟨port, 1, none⟩

def setAuthSys (rpc : TcpRpcClient) (auth : AuthSys) : TcpRpcClient :=
  { rpc with auth_sys_ := some auth }

def clearAuth (rpc : TcpRpcClient) : TcpRpcClient :=
  { rpc with auth_sys_ := none }

/-- The request of the next call. -/
def request (rpc : TcpRpcClient) (prog vers proc : UInt32) (args : Bytes) : RpcRequest :=
  ⟨rpc.port, rpc.xid_, prog, vers, proc, args, rpc.auth_sys_⟩

/-- `my_xid = xid_++`. -/
def bump (rpc : TcpRpcClient) : TcpRpcClient := { rpc with xid_ := rpc.xid_ + 1 }

/-- The xid is taken before anything is sent, and stays taken whatever comes back. -/
def call (prog vers proc : UInt32) (args : Bytes) : ClientM TcpRpcClient Bytes := fun rpc =>
  .call (rpc.request prog vers proc args) fun received =>
    .done (received.bind parseReply, rpc.bump)

end TcpRpcClient

theorem wpM_call {S : Type} {step : Step RpcRequest Received S} {ok : S → RpcRequest → Prop}
    {post : Except Exn Bytes → TcpRpcClient → S → Prop} {prog vers proc : UInt32} {args : Bytes}
    {rpc : TcpRpcClient} {s : S} :
    wpM step ok post (TcpRpcClient.call prog vers proc args) rpc s ↔
      ok s (rpc.request prog vers proc args) ∧
        ∀ r s', step s (rpc.request prog vers proc args) r s' →
          post (r.bind parseReply) rpc.bump s' := Iff.rfl

/-! ### Executions -/

/-- What will be received is prepared, in order. -/
def scripted : List Received → RpcRequest → Option Received × List Received
  | [], _ => (none, [])
  | r :: rs, _ => (some r, rs)

namespace ClientM

variable {σ α β : Type}

/-- The execution of a method that receives `rs`: what comes of it, and what of `rs` is left. -/
def exec (m : ClientM σ α) (c : σ) (rs : List Received) :
    Option (Except Exn α × σ) × List Received := (m c).run scripted rs

theorem exec_bind {m : ClientM σ α} {f : α → ClientM σ β} {c c' : σ} {rs rs' : List Received}
    {a : α} (h : m.exec c rs = (some (.ok a, c'), rs')) :
    (m >>= f).exec c rs = (f a).exec c' rs' := Prog.run_bind h

theorem exec_bind_error {m : ClientM σ α} {f : α → ClientM σ β} {c c' : σ}
    {rs rs' : List Received} {e : Exn} (h : m.exec c rs = (some (.error e, c'), rs')) :
    (m >>= f).exec c rs = (some (.error e, c'), rs') := Prog.run_bind h

theorem exec_onMember {τ : Type} {get : σ → τ} {set : τ → σ → σ} {m : ClientM τ α} {c : σ} {t : τ}
    {rs rs' : List Received} {r : Except Exn α} (h : m.exec (get c) rs = (some (r, t), rs')) :
    (onMember get set m).exec c rs = (some (r, set t c), rs') := Prog.run_bind h

theorem exec_decode {d : XdrDecoder α} {bytes : Bytes} {c : σ} {rs : List Received} :
    (ClientM.decode d bytes).exec c rs = (some ((d bytes).map Prod.fst, c), rs) := by
  unfold ClientM.exec ClientM.decode
  cases d bytes <;> rfl

end ClientM

end NfsClient
