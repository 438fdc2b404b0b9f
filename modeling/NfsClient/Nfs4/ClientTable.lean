import NfsClient.Lib.Sharing
import NfsClient.Nfs4.Opens
import NfsClient.Nfs4.Slot

/-!
# The client table of a server

A server of RFC 7530 or RFC 8881 has one record for each client-owner string. A handshake has two
requests: SETCLIENTID or EXCHANGE_ID proposes a string with a boot verifier and is given a clientid and
a token, SETCLIENTID_CONFIRM or CREATE_SESSION confirms that clientid with that token. If the string
is known under another verifier, its client has rebooted: the clientid is a new one, and once it is
confirmed the old one is discarded (`Propose`, `Confirm`).

Where several clients use one string, each of them is the reboot of the one before. `live_iff` says who
is left: the clientid of a client is known to the server if and only if its handshake is the last one
that was confirmed. The two versions of the protocol differ in how a request is read and a reply is
written, which is what `Handshake` abstracts from.
-/

namespace NfsClient

open Xdr Reader Interaction

/-! ### Requests and replies of a handshake -/

/-- What a request asks of the table. -/
inductive Ask (T : Type)
  | propose (owner : Bytes) (verifier : Octets 8)
  | confirm (clientid : UInt64) (token : T)
  | other

/-- How one version of the protocol puts it. -/
structure Handshake (T : Type) where
  ask : RpcRequest → Ask T
  /-- The reply grants a clientid and its token. -/
  Granted : UInt64 → T → Received → Prop

/-- Nothing is received, or the server refuses the call, or the outer status is an error. -/
def CallFails (received : Received) : Prop :=
  (∃ e, received.bind parseReply = .error e) ∨ ∃ status, status ≠ 0 ∧ AnsweredWith received status

theorem CallFails.result {α : Type} {q : CompoundCall α} {d : XdrDecoder α} {received : Received}
    (h : CallFails received) (hq : q.decode = do checkCompoundStatus; d) :
    ∃ e, q.result received = .error e := by
  unfold CompoundCall.result
  rcases h with ⟨e, he⟩ | ⟨status, hstatus, rest, hparse⟩
  · rw [he]
    exact ⟨e, rfl⟩
  · have hcheck : checkCompoundStatus (word status ++ rest) = .error (.nfs4Error status "COMPOUND") :=
      (bind_of_ok (getUint32_ok.mpr rfl)).trans (throwIf_bind_error hstatus)
    rw [hparse]
    simp only [Except.bind, hq, bind_error.mpr (Or.inl hcheck)]
    exact ⟨_, rfl⟩

/-! ### The table -/

/-- The record of a client-owner string: the clientid that is confirmed, and one that is to be. -/
structure ClientRecord (T : Type) where
  confirmed : Option (Octets 8 × UInt64)
  pending : Option (Octets 8 × UInt64 × T)

/-- The records, and for whom each clientid was made. -/
structure ClientTable (T : Type) where
  records : Bytes → ClientRecord T
  issued : UInt64 → Option (Bytes × Octets 8)

namespace ClientTable

variable {T : Type}

/-- The clientid is confirmed and not discarded. -/
def Live (t : ClientTable T) (clientid : UInt64) : Prop :=
  ∃ owner verifier, t.issued clientid = some (owner, verifier) ∧
    (t.records owner).confirmed = some (verifier, clientid)

/-- The table with another record for a string. -/
def setRecord (t : ClientTable T) (owner : Bytes) (record : ClientRecord T) : ClientTable T :=
  { t with records := fun other => if other = owner then record else t.records other }

/-- The table in which a clientid has been made. -/
def issue (t : ClientTable T) (clientid : UInt64) (owner : Bytes) (verifier : Octets 8) :
    ClientTable T :=
  { t with issued := fun other => if other = clientid then some (owner, verifier) else t.issued other }

/-- A proposal that is granted: the same clientid again where the string is known under this verifier,
and a new one otherwise, which replaces any that was not confirmed. -/
inductive Propose (t : ClientTable T) (owner : Bytes) (verifier : Octets 8) :
    UInt64 → T → ClientTable T → Prop
  | new {clientid : UInt64} {token : T} (hissued : t.issued clientid = none)
      (hunknown : ∀ other, (t.records owner).confirmed ≠ some (verifier, other)) :
      Propose t owner verifier clientid token ((t.issue clientid owner verifier).setRecord owner
        ⟨(t.records owner).confirmed, some (verifier, clientid, token)⟩)
  | known {clientid : UInt64} {token : T} {pending : Option (Octets 8 × UInt64 × T)}
      (hissued : t.issued clientid = some (owner, verifier))
      (hknown : (t.records owner).confirmed = some (verifier, clientid))
      (hpending : pending = (t.records owner).pending ∨ pending = some (verifier, clientid, token)) :
      Propose t owner verifier clientid token
        (t.setRecord owner ⟨(t.records owner).confirmed, pending⟩)

/-- A confirmation that is taken. The clientid that was confirmed before is no longer known. -/
inductive Confirm (t : ClientTable T) : UInt64 → T → ClientTable T → Prop
  | pending {owner : Bytes} {verifier : Octets 8} {clientid : UInt64} {token : T}
      (hissued : t.issued clientid = some (owner, verifier))
      (hpending : (t.records owner).pending = some (verifier, clientid, token)) :
      Confirm t clientid token (t.setRecord owner ⟨some (verifier, clientid), none⟩)
  | again {owner : Bytes} {verifier : Octets 8} {clientid : UInt64} {token : T}
      (hissued : t.issued clientid = some (owner, verifier))
      (hconfirmed : (t.records owner).confirmed = some (verifier, clientid)) :
      Confirm t clientid token t

variable {t t' : ClientTable T} {owner : Bytes} {verifier : Octets 8} {clientid : UInt64} {token : T}

theorem Propose.issued (h : t.Propose owner verifier clientid token t') :
    t'.issued clientid = some (owner, verifier) := by
  cases h with
  | new => exact if_pos rfl
  | known hissued => exact hissued

theorem Propose.issued_mono (h : t.Propose owner verifier clientid token t') {other : UInt64}
    {x : Bytes × Octets 8} (hother : t.issued other = some x) : t'.issued other = some x := by
  cases h with
  | new hissued =>
    have hne : other ≠ clientid := by
      rintro rfl
      rw [hissued] at hother
      cases hother
    exact (if_neg hne).trans hother
  | known => exact hother

/-- Another pending clientid leaves the confirmed one. -/
theorem setRecord_confirmed {pending : Option (Octets 8 × UInt64 × T)} (other : Bytes) :
    ((t.setRecord owner ⟨(t.records owner).confirmed, pending⟩).records other).confirmed =
      (t.records other).confirmed := by
  change (if other = owner then _ else _ : ClientRecord T).confirmed = _
  by_cases hother : other = owner
  · rw [if_pos hother, hother]
  · rw [if_neg hother]

/-- A proposal discards nothing. -/
theorem Propose.confirmed (h : t.Propose owner verifier clientid token t') (other : Bytes) :
    (t'.records other).confirmed = (t.records other).confirmed := by
  cases h with
  | new => exact setRecord_confirmed (t := t.issue clientid owner verifier) other
  | known => exact setRecord_confirmed other

theorem Confirm.issued (h : t.Confirm clientid token t') : t'.issued = t.issued := by
  cases h <;> rfl

theorem Confirm.confirmed (h : t.Confirm clientid token t')
    (hissued : t.issued clientid = some (owner, verifier)) :
    (t'.records owner).confirmed = some (verifier, clientid) := by
  cases h with
  | pending hissued' =>
    obtain ⟨rfl, rfl⟩ := Prod.mk.inj (Option.some.inj (hissued.symm.trans hissued'))
    exact congrArg ClientRecord.confirmed (if_pos rfl)
  | again hissued' hconfirmed =>
    obtain ⟨rfl, rfl⟩ := Prod.mk.inj (Option.some.inj (hissued.symm.trans hissued'))
    exact hconfirmed

end ClientTable

/-- What the server does to a request: the table after it, what is received, and the clientid that was
confirmed, if any. A reply to a proposal is true or lost; a confirmation that is taken may be answered
with anything, one that is refused fails. -/
inductive TableStep {T : Type} (H : Handshake T) :
    ClientTable T → RpcRequest → Received → ClientTable T → Option UInt64 → Prop
  | propose {t t' : ClientTable T} {q : RpcRequest} {r : Received} {owner : Bytes}
      {verifier : Octets 8} {clientid : UInt64} {token : T} (hq : H.ask q = .propose owner verifier)
      (ht : t.Propose owner verifier clientid token t')
      (hr : H.Granted clientid token r ∨ CallFails r) : TableStep H t q r t' none
  | confirm {t t' : ClientTable T} {q : RpcRequest} {r : Received} {clientid : UInt64} {token : T}
      (hq : H.ask q = .confirm clientid token) (ht : t.Confirm clientid token t') :
      TableStep H t q r t' (some clientid)
  | refuse {t : ClientTable T} {q : RpcRequest} {r : Received} (hr : CallFails r) :
      TableStep H t q r t none
  | other {t : ClientTable T} {q : RpcRequest} {r : Received} (hq : H.ask q = .other) :
      TableStep H t q r t none

/-! ### Several clients -/

/-- The table, and the confirmations that were taken, the last one first: of which client, and of which
clientid. -/
structure Registry (ι T : Type) where
  table : ClientTable T
  confirms : List (ι × UInt64)

/-- A request of client `i`. -/
inductive RegistryStep {ι T : Type} (H : Handshake T) (i : ι) :
    Step RpcRequest Received (Registry ι T)
  | mk {s : Registry ι T} {q : RpcRequest} {r : Received} {t : ClientTable T} {o : Option UInt64}
      (h : TableStep H s.table q r t o) :
      RegistryStep H i s q r ⟨t, o.toList.map (Prod.mk i) ++ s.confirms⟩

namespace Registry

variable {ι T : Type} [DecidableEq ι] {H : Handshake T} {s s' : Registry ι T} {i j : ι}
  {q : RpcRequest} {r : Received}

/-- The clientids that client `i` has confirmed. -/
def confirmsOf (s : Registry ι T) (i : ι) : List UInt64 :=
  (s.confirms.filter fun x => x.1 = i).map Prod.snd

/-- The client whose handshake is the last one confirmed. -/
def lastConfirmed (s : Registry ι T) : Option ι := s.confirms.head?.map Prod.fst

/-- What the steps of other clients keep for client `i`: clientids stay with whom they were made for,
and what `i` has confirmed stays the same. -/
structure Relies (i : ι) (s s' : Registry ι T) : Prop where
  issued : ∀ clientid x, s.table.issued clientid = some x → s'.table.issued clientid = some x
  confirmsOf : s'.confirmsOf i = s.confirmsOf i

theorem Relies.refl (i : ι) (s : Registry ι T) : Relies i s s := ⟨fun _ _ h => h, rfl⟩

theorem Relies.trans {s₁ s₂ s₃ : Registry ι T} (h : Relies i s₁ s₂) (h' : Relies i s₂ s₃) :
    Relies i s₁ s₃ :=
  ⟨fun _ _ hissued => h'.issued _ _ (h.issued _ _ hissued), h'.confirmsOf.trans h.confirmsOf⟩

omit [DecidableEq ι] in
theorem issued_of_step (h : RegistryStep H i s q r s') {clientid : UInt64} {x : Bytes × Octets 8}
    (hissued : s.table.issued clientid = some x) : s'.table.issued clientid = some x := by
  cases h with
  | mk h =>
    cases h with
    | propose _ ht => exact ht.issued_mono hissued
    | confirm _ ht => exact (congrFun ht.issued clientid).trans hissued
    | refuse => exact hissued
    | other => exact hissued

theorem relies_of_other (hij : i ≠ j) (h : RegistryStep H j s q r s') : Relies i s s' := by
  refine ⟨fun _ _ hissued => issued_of_step h hissued, ?_⟩
  cases h with
  | @mk _ _ _ _ o h =>
    cases o with
    | none => rfl
    | some clientid =>
      change ((((j, clientid) :: s.confirms).filter fun x => x.1 = i).map Prod.snd) = _
      rw [List.filter_cons_of_neg (by simpa using hij.symm)]
      rfl

theorem relies_of_quiet (hq : H.ask q = .other) (h : RegistryStep H i s q r s') :
    Relies i s s' := by
  cases h with
  | mk h =>
    cases h with
    | propose hask => exact absurd (hask.symm.trans hq) nofun
    | confirm hask => exact absurd (hask.symm.trans hq) nofun
    | refuse => exact .refl i s
    | other => exact .refl i s

/-- What a confirmation adds. -/
theorem confirmsOf_confirm (s : Registry ι T) (t : ClientTable T) (clientid : UInt64) :
    confirmsOf ⟨t, (i, clientid) :: s.confirms⟩ i = clientid :: s.confirmsOf i := by
  change ((((i, clientid) :: s.confirms).filter fun x => x.1 = i).map Prod.snd) = _
  rw [List.filter_cons_of_pos (by simp)]
  rfl

/-! ### The invariant of the registry -/

section Invariant

variable (owner : Bytes) (verifier : ι → Octets 8)

/-- All clients use the string `owner`, each with its verifier, and the clientid that is known for it
is the one that was confirmed last. -/
structure OneString (s : Registry ι T) : Prop where
  issued : ∀ x ∈ s.confirms, s.table.issued x.2 = some (owner, verifier x.1)
  known : ∀ x, s.confirms.head? = some x →
    (s.table.records owner).confirmed = some (verifier x.1, x.2)

/-- A client confirms nothing but a clientid that was made for it. -/
def ConfirmsOwn (H : Handshake T) (i : ι) (s : Registry ι T) (q : RpcRequest) : Prop :=
  ∀ clientid token, H.ask q = .confirm clientid token →
    s.table.issued clientid = some (owner, verifier i)

variable {owner verifier}

omit [DecidableEq ι] in
theorem confirmsOwn_of_propose {other : Bytes} {v : Octets 8} (hq : H.ask q = .propose other v) :
    ConfirmsOwn owner verifier H i s q :=
  fun _ _ hask => absurd (hask.symm.trans hq) nofun

omit [DecidableEq ι] in
theorem confirmsOwn_of_other (hq : H.ask q = .other) : ConfirmsOwn owner verifier H i s q :=
  fun _ _ hask => absurd (hask.symm.trans hq) nofun

omit [DecidableEq ι] in
theorem OneString.step (h : OneString owner verifier s) (hown : ConfirmsOwn owner verifier H i s q)
    (hstep : RegistryStep H i s q r s') : OneString owner verifier s' := by
  have hissued : ∀ x ∈ s.confirms, s'.table.issued x.2 = some (owner, verifier x.1) :=
    fun x hx => issued_of_step hstep (h.issued x hx)
  cases hstep with
  | mk hstep =>
    cases hstep with
    | propose hq ht =>
      refine ⟨hissued, fun x hx => ?_⟩
      rw [ht.confirmed owner]
      exact h.known x hx
    | @confirm t' _ _ clientid token hq ht =>
      -- what is confirmed was made for the client that confirms it, under the one string
      have hclientid := hown clientid token hq
      refine ⟨List.forall_mem_cons.mpr ⟨?_, hissued⟩, fun x hx => ?_⟩
      · exact (congrFun ht.issued clientid).trans hclientid
      · obtain rfl : (i, clientid) = x := Option.some.inj hx
        exact ht.confirmed hclientid
    | refuse => exact h
    | other => exact h

/-- **Who is left.** -/
theorem OneString.live_iff (h : OneString owner verifier s)
    (hverifier : ∀ i j, verifier i = verifier j → i = j) {clientid : UInt64}
    (hi : s.confirmsOf i = [clientid]) :
    s.table.Live clientid ↔ s.lastConfirmed = some i := by
  obtain ⟨x, hx, hclientid⟩ : ∃ x ∈ s.confirms.filter (fun x => x.1 = i), x.2 = clientid :=
    List.mem_map.mp (by
      change clientid ∈ s.confirmsOf i
      rw [hi]
      exact List.mem_singleton_self clientid)
  obtain ⟨hmem, hxi⟩ := List.mem_filter.mp hx
  have hxi : x.1 = i := of_decide_eq_true hxi
  have hissued : s.table.issued clientid = some (owner, verifier i) := by
    rw [← hclientid, ← hxi]
    exact h.issued x hmem
  -- there is a last confirmation, since `i` has made one
  obtain ⟨y, rest, hconfirms⟩ : ∃ y rest, s.confirms = y :: rest :=
    List.exists_cons_of_ne_nil (List.ne_nil_of_mem hmem)
  have hknown := h.known y (by rw [hconfirms]; rfl)
  have hlast : s.lastConfirmed = some y.1 := by
    unfold lastConfirmed
    rw [hconfirms]
    rfl
  rw [hlast]
  constructor
  · rintro ⟨owner', verifier', hissued', hconfirmed⟩
    obtain ⟨rfl, rfl⟩ := Prod.mk.inj (Option.some.inj (hissued.symm.trans hissued'))
    have hpair := Option.some.inj (hknown.symm.trans hconfirmed)
    exact congrArg some (hverifier _ _ (congrArg Prod.fst hpair))
  · intro hy
    have hyi : y.1 = i := Option.some.inj hy
    have hown : y.2 ∈ s.confirmsOf i :=
      List.mem_map_of_mem (List.mem_filter.mpr ⟨by rw [hconfirms]; exact List.mem_cons_self,
        decide_eq_true hyi⟩)
    rw [hi] at hown
    have hyclientid : y.2 = clientid := List.mem_singleton.mp hown
    rw [hyi, hyclientid] at hknown
    exact ⟨owner, verifier i, hissued, hknown⟩

/-- **The contract of clients that share a server**: a constructor that returns `c` has confirmed the
clientid of `c` and no other. -/
def contract {C : Type} (H : Handshake T) (owner : Bytes) (verifier : ι → Octets 8)
    (clientid : C → UInt64) :
    Contract ι RpcRequest Received (Registry ι T) C (RegistryStep H) where
  rely := Relies
  ok := ConfirmsOwn owner verifier H
  quiet q := H.ask q = .other
  inv := OneString owner verifier
  kept i c s := s.confirmsOf i = [clientid c]
  rely_refl := .refl
  rely_trans _ _ _ _ h h' := h.trans h'
  rely_of_other _ _ _ _ _ _ hij h := relies_of_other hij h
  rely_of_quiet _ _ _ _ _ hq h := relies_of_quiet hq h
  ok_stable _ _ _ _ h hok clientid token hq := h.issued _ _ (hok clientid token hq)
  ok_of_quiet _ _ _ hq := confirmsOwn_of_other hq
  kept_stable _ _ _ _ h hkept := h.confirmsOf.trans hkept
  inv_step _ _ _ _ _ h hok hstep := h.step hok hstep

end Invariant

/-! ### What a client sees of its own steps -/

section Interfered

variable {owner : Bytes} {verifier : Octets 8} {clientid : UInt64} {token : T}

theorem interfered_other (hq : H.ask q = .other)
    (h : interfered (Relies i) (RegistryStep H i) s q r s') : s'.confirmsOf i = s.confirmsOf i := by
  obtain ⟨s₀, hrely, hstep⟩ := h
  exact (relies_of_quiet hq hstep).confirmsOf.trans hrely.confirmsOf

/-- A proposal is granted or fails. -/
theorem interfered_propose (hq : H.ask q = .propose owner verifier)
    (h : interfered (Relies i) (RegistryStep H i) s q r s') :
    s'.confirmsOf i = s.confirmsOf i ∧ (CallFails r ∨ ∃ clientid token,
      H.Granted clientid token r ∧ s'.table.issued clientid = some (owner, verifier)) := by
  obtain ⟨s₀, hrely, hstep⟩ := h
  -- a proposal confirms nothing, and a true grant is in the table
  refine ⟨?_, ?_⟩
  · cases hstep with
    | mk hstep =>
      cases hstep with
      | propose => exact hrely.confirmsOf
      | confirm hask => exact absurd (hask.symm.trans hq) nofun
      | refuse => exact hrely.confirmsOf
      | other => exact hrely.confirmsOf
  · cases hstep with
    | mk hstep =>
      cases hstep with
      | propose hask ht hr =>
        obtain ⟨rfl, rfl⟩ := Ask.propose.inj (hask.symm.trans hq)
        rcases hr with hr | hr
        · exact Or.inr ⟨_, _, hr, ht.issued⟩
        · exact Or.inl hr
      | confirm hask => exact absurd (hask.symm.trans hq) nofun
      | refuse hr => exact Or.inl hr
      | other hask => exact absurd (hask.symm.trans hq) nofun

/-- A confirmation is taken or fails. -/
theorem interfered_confirm (hq : H.ask q = .confirm clientid token)
    (h : interfered (Relies i) (RegistryStep H i) s q r s') :
    CallFails r ∨ s'.confirmsOf i = clientid :: s.confirmsOf i := by
  obtain ⟨s₀, hrely, hstep⟩ := h
  cases hstep with
  | mk hstep =>
    cases hstep with
    | propose hask => exact absurd (hask.symm.trans hq) nofun
    | confirm hask =>
      obtain ⟨rfl, -⟩ := Ask.confirm.inj (hask.symm.trans hq)
      rw [← hrely.confirmsOf]
      exact Or.inr (confirmsOf_confirm s₀ _ _)
    | refuse hr => exact Or.inl hr
    | other hask => exact absurd (hask.symm.trans hq) nofun

/-- What the client makes of the reply to its proposal: an exception, or a clientid made for it. -/
theorem proposed {α : Type} (call : CompoundCall α) {d : XdrDecoder α}
    (hcall : call.decode = do checkCompoundStatus; d) (hq : H.ask q = .propose owner verifier)
    (h : interfered (Relies i) (RegistryStep H i) s q r s') (hempty : s.confirmsOf i = []) :
    (∃ e, call.result r = .error e) ∨ ∃ clientid token, H.Granted clientid token r ∧
      s'.table.issued clientid = some (owner, verifier) ∧ s'.confirmsOf i = [] := by
  obtain ⟨hsame, hfails | ⟨clientid, token, hgranted, hissued⟩⟩ := interfered_propose hq h
  · exact Or.inl (hfails.result hcall)
  · exact Or.inr ⟨clientid, token, hgranted, hissued, hsame.trans hempty⟩

/-- A confirmation without an exception has been taken. -/
theorem confirmed {α : Type} {call : CompoundCall α} {d : XdrDecoder α} {a : α}
    (hcall : call.decode = do checkCompoundStatus; d) (hq : H.ask q = .confirm clientid token)
    (h : interfered (Relies i) (RegistryStep H i) s q r s') (hempty : s.confirmsOf i = [])
    (hok : call.result r = .ok a) : s'.confirmsOf i = [clientid] := by
  rcases interfered_confirm hq h with hfails | hconfirmed
  · obtain ⟨e, he⟩ := hfails.result hcall
    rw [hok] at he
    cases he
  · rw [hconfirmed, hempty]

end Interfered

/-- **Clients that use one string.** In every run of clients with different verifiers, from any table
and in whatever order they send, the clientid of a client whose constructor has returned is known to
the server if and only if its handshake is the last one confirmed. -/
theorem live_of_run {C : Type} {owner : Bytes} {verifier : ι → Octets 8} {clientid : C → UInt64}
    {construct : ι → Prog RpcRequest Received (Option C)} {serve : ι → C → Prog RpcRequest Received Unit}
    (hverifier : ∀ i j, verifier i = verifier j → i = j) {table : ClientTable T}
    (hconstruct : ∀ i, (contract H owner verifier clientid).Establishes i (construct i) ⟨table, []⟩)
    (hserve : ∀ i c, (serve i c).Only fun q => H.ask q = .other)
    {parties : ι → Party RpcRequest Received C}
    (hrun : SharedRun (RegistryStep H) construct serve ⟨table, []⟩ (parties, s))
    {c : C} {p : Prog RpcRequest Received Unit} (hi : parties i = .returned c p) :
    s.table.Live (clientid c) ↔ s.lastConfirmed = some i := by
  have hempty : OneString owner verifier (⟨table, []⟩ : Registry ι T) :=
    ⟨fun x hx => absurd hx List.not_mem_nil, fun x hx => absurd hx nofun⟩
  obtain ⟨hinv, hparties⟩ := Contract.run_holds hempty hconstruct hserve hrun
  have hparty : (contract H owner verifier clientid).Holds i s (.returned c p) := hi ▸ hparties i
  exact hinv.live_iff hverifier hparty.1

end Registry

end NfsClient
