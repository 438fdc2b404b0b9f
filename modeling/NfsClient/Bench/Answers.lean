import NfsClient.Bench.Cleanup
import NfsClient.Nfs3.Transparency

/-!
# Servers by their answers

A server is given by what it may answer to the arguments of a procedure, and how that changes its state
(`Answers`). The bytes of requests and replies are the same for all servers (`Answers.Serves`). What is to
be shown of a call is the rule `Answers.twpM_call`: the server has an answer, and whatever it is will do.
-/

namespace NfsClient

open Xdr Interaction Nfs3

namespace Bench

/-- The answers of a server with states `S`: a result of the procedure or, with `none`, a refusal. -/
abbrev Answers (S : Type) : Type := (p : Proc) → p.Args → Option p.Ok → S → S → Prop

namespace Answers

variable {S : Type} (A : Answers S)

inductive Serves : Step RpcRequest Received S
  | carries {p : Proc} {a : p.Args} {r : p.Ok} {q : RpcRequest} {received : Received} {s s' : S}
      (hq : Asks p q a) (ha : A p a (some r) s s') (hr : Carries p received r) : Serves s q received s'
  | refuses {p : Proc} {a : p.Args} {q : RpcRequest} {received : Received} {s s' : S} (hq : Asks p q a)
      (ha : A p a none s s') (hr : Refuses p received) : Serves s q received s'

/-- The server has an answer. -/
def Served (s : S) (q : RpcRequest) : Prop := ∃ received s', A.Serves s q received s'

/-- The same, of the arguments of a procedure. -/
def Able (p : Proc) (a : p.Args) (s : S) : Prop :=
  (∃ r s', A p a (some r) s s' ∧ p.okFormat.Fits r) ∨ ∃ s', A p a none s s'

variable {A} {s : S}

theorem exists_refuses (p : Proc) : ∃ received, Refuses p received :=
  ⟨_, 1, 0, [], 1, p.emptyBody, Nat.two_pow_pos 32, by decide, rfl⟩

theorem Able.served {p : Proc} {a : p.Args} {q : RpcRequest} (h : A.Able p a s) (hq : Asks p q a) :
    A.Served s q := by
  rcases h with ⟨r, s', ha, hfits⟩ | ⟨s', ha⟩
  · obtain ⟨received, hr⟩ := exists_carries hfits
    exact ⟨received, s', .carries hq ha hr⟩
  · obtain ⟨received, hr⟩ := exists_refuses p
    exact ⟨received, s', .refuses hq ha hr⟩

/-- **The rule of a call.** -/
theorem twpM_call {c : Call} {post : Except Exn c.Result → NFSClient → S → Prop} {nfs : NFSClient}
    (hfits : c.Fits) (hable : A.Able c.proc c.args s)
    (hok : ∀ r nfs s', A c.proc c.args (some r) s s' → post (c.outcome r) nfs s')
    (hrefused : ∀ e nfs s', A c.proc c.args none s s' → post (.error e) nfs s') :
    twpM A.Serves A.Served post (call c) nfs s := by
  have hasks := Call.asks hfits nfs.nfs_conn_
  refine twpM_client_call.mpr ⟨hable.served hasks, fun received s' hserves => ?_⟩
  cases hserves with
  | carries hq ha hr =>
    obtain rfl := hq.proc_eq hasks
    obtain rfl := hq.unique hasks
    rw [Call.result_of_carries hr]
    exact hok _ _ _ ha
  | refuses hq ha hr =>
    obtain rfl := hq.proc_eq hasks
    obtain rfl := hq.unique hasks
    obtain ⟨e, he⟩ := Call.result_of_refuses hr
    rw [he]
    exact hrefused _ _ _ ha

end Answers

end Bench

end NfsClient
