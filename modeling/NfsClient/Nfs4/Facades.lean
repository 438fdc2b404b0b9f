import NfsClient.Listing.Loops
import NfsClient.Nfs4.Replies

/-!
# The two facades agree

`Nfs4Client` and `Nfs41Client` have the same methods, written twice. Apart from the opens a method of
one does what the same method of the other does: it sends the same operations, behind a SEQUENCE in
the session, and makes the same of the results, behind that of the SEQUENCE. This holds whatever the
results are, so also of replies that fail or are no replies at all.

Two facts carry it. The two COMPOUNDs of a method have the same operation bytes
(`fileCall_ops_eq`), and the two decoders begin with the same header and end with the same decoding
calls (`result_agree`). From there on it is a matter of programs in step (`Interaction.Sim`), in
which the page loop of `readdir` is one step and itself again.
-/

namespace NfsClient

open Xdr Reader Interaction

/-! ### Headers of replies -/

/-- The header of a COMPOUND reply: status, echoed tag with its padding, number of results. -/
structure CompoundHeader where
  status : UInt32
  tag : Bytes
  pad : Bytes
  numresults : UInt32
  length_tag : tag.length < 2 ^ 32
  length_pad : pad.length = padLen tag.length

def CompoundHeader.bytes (h : CompoundHeader) : Bytes :=
  word h.status ++ (word (UInt32.ofNat h.tag.length) ++ (h.tag ++ h.pad)) ++ word h.numresults

theorem CompoundHeader.reads (h : CompoundHeader) (hstatus : h.status = 0) :
    Reads checkCompoundStatus h.bytes () := by
  have htag : Reads getString (word (UInt32.ofNat h.tag.length) ++ (h.tag ++ h.pad)) h.tag :=
    fun rest => getOpaque_ok.mpr ⟨h.pad, h.length_tag, h.length_pad, by
      simp only [List.append_assoc]⟩
  unfold CompoundHeader.bytes
  rw [List.append_assoc]
  exact (getUint32_reads h.status).bind <| throwIf_bind_reads (not_not.mpr hstatus) <|
    htag.bind <| (getUint32_reads h.numresults).bind_nil (Reads.pure _)

/-- The header decides by its status alone whether the results are looked at. -/
theorem CompoundHeader.bind_eq {α : Type} (h : CompoundHeader) (d : XdrDecoder α) (rest : Bytes) :
    (do checkCompoundStatus; d) (h.bytes ++ rest) =
      if h.status = 0 then d rest else .error (.nfs4Error h.status "COMPOUND") := by
  by_cases hzero : h.status = 0
  · rw [if_pos hzero]
    exact bind_of_ok (h.reads hzero rest)
  · rw [if_neg hzero]
    have hstatus : checkCompoundStatus (h.bytes ++ rest)
        = .error (.nfs4Error h.status "COMPOUND") := by
      unfold CompoundHeader.bytes
      simp only [List.append_assoc]
      exact (bind_of_ok (getUint32_reads h.status _)).trans (throwIf_bind_error hzero)
    exact bind_error.mpr (Or.inl hstatus)

/-! ### Requests and replies in step -/

/-- The same COMPOUND without and with a session: the operation bytes behind the SEQUENCE are those of
the other, there is one operation more, and the minor version is 1 instead of 0. -/
def RequestsAgree (q q' : RpcRequest) : Prop :=
  q'.prog = q.prog ∧ q'.vers = q.vers ∧ q'.proc = q.proc ∧
  ∃ (ops : Bytes) (num_ops num_ops' : UInt32) (sessionid : SessionId41) (sequenceid : UInt32),
    q.args = compoundArgs [] ops num_ops 0 ∧
    q'.args = compoundArgs [] (encodeSequence41 sessionid sequenceid 0 0 false ++ ops) num_ops' 1 ∧
    num_ops'.toNat = num_ops.toNat + 1

/-- The same reply without and with a session: headers with the same status, the result of a
successful SEQUENCE behind the second one, and any bytes. Or neither is an accepted RPC reply, for the
same reason. -/
def RepliesAgree (r r' : Received) : Prop :=
  (∃ e, r.bind parseReply = .error e ∧ r'.bind parseReply = .error e) ∨
  ∃ (h h' : CompoundHeader) (sequence : Op.SEQUENCE.Res) (rest : Bytes), h'.status = h.status ∧
    r.bind parseReply = .ok (h.bytes ++ rest) ∧
    r'.bind parseReply = .ok (h'.bytes ++ (ResOp.format.write ⟨.SEQUENCE, sequence⟩ ++ rest))

/-- Whatever is behind the header, the results come to the same. -/
theorem result_agree {α : Type} {q q' : CompoundCall α} {d : XdrDecoder α}
    (hq : q.decode = (do checkCompoundStatus; d))
    (hq' : q'.decode = (do checkCompoundStatus; decodeSequence41Result; d)) {r r' : Received}
    (h : RepliesAgree r r') : q.result r = q'.result r' := by
  unfold CompoundCall.result
  rcases h with ⟨e, hr, hr'⟩ | ⟨h, h', sequence, rest, hstatus, hr, hr'⟩
  · rw [hr, hr']
    rfl
  · rw [hr, hr']
    change (q.decode _).map Prod.fst = (q'.decode _).map Prod.fst
    rw [hq, hq', h.bind_eq, h'.bind_eq, hstatus]
    split
    · rw [bind_of_ok (decodeSequence41Result_reads sequence rest)]
    · rfl

/-! ### Methods in step -/

/-- Two methods, one of each facade, that are in step from any fields. -/
def InStep {α : Type} (m : ClientM Nfs4Client α) (m' : ClientM Nfs41Client α) : Prop :=
  ∀ c c', Sim RequestsAgree RepliesAgree (fun x x' => x.1 = x'.1) (m c) (m' c')

theorem InStep.pure {α : Type} (a : α) : InStep (Pure.pure a) (Pure.pure a) :=
  fun _ _ => .done rfl

theorem InStep.bind {α β : Type} {m : ClientM Nfs4Client α} {m' : ClientM Nfs41Client α}
    {f : α → ClientM Nfs4Client β} {f' : α → ClientM Nfs41Client β} (h : InStep m m')
    (hf : ∀ a, InStep (f a) (f' a)) : InStep (m >>= f) (m' >>= f') := by
  intro c c'
  refine (h c c').bind fun ⟨r, c₁⟩ ⟨r', c₁'⟩ hr => ?_
  obtain rfl : r = r' := hr
  cases r with
  | ok a => exact hf a c₁ c₁'
  | error e => exact .done rfl

/-- A COMPOUND of each facade. -/
theorem InStep.call {α : Type} {q q' : CompoundCall α} {d : XdrDecoder α} (htag : q.tag = [])
    (htag' : q'.tag = []) (hops : q'.ops = q.ops) (hnum : q'.numOps = q.numOps)
    (hlt : q.numOps.toNat + 1 < 2 ^ 32) (hq : q.decode = (do checkCompoundStatus; d))
    (hq' : q'.decode = (do checkCompoundStatus; decodeSequence41Result; d)) :
    InStep (Nfs4Client.onRpc (q.send 0)) (Nfs41Client.call q') := by
  intro c c'
  rw [Nfs4Client.onRpc_send_eq, Nfs41Client.call_eq]
  refine .call ⟨rfl, rfl, rfl, q.ops, q.numOps, q.numOps + 1, c'.sessionid_, c'.slot_seqid_,
    ?_, ?_, ?_⟩ fun r r' hr => .done (result_agree hq hq' hr)
  · rw [← htag]
    rfl
  · rw [← htag', ← hops, ← hnum]
    rfl
  · rw [UInt32.toNat_add]
    exact Nat.mod_eq_of_lt hlt

theorem fileCall_ops_eq (m : FileMethod) :
    (Nfs41Client.fileCall m).ops = (Nfs4Client.fileCall m).ops ∧
      (Nfs41Client.fileCall m).numOps = (Nfs4Client.fileCall m).numOps := by
  cases m <;> exact ⟨rfl, rfl⟩

theorem fileCall_inStep (m : FileMethod) :
    InStep (Nfs4Client.onRpc ((Nfs4Client.fileCall m).send 0))
      (Nfs41Client.call (Nfs41Client.fileCall m)) := by
  obtain ⟨hops, hnum⟩ := fileCall_ops_eq m
  refine InStep.call ?_ ?_ hops hnum ?_ (Nfs4Client.fileCall_decode m)
    (Nfs41Client.fileCall_decode m)
  · cases m <;> rfl
  · cases m <;> rfl
  · cases m <;> exact of_decide_eq_true rfl

theorem readdirPage_inStep (dir : Nfs4Fh) (cookie : UInt64) (cookieverf : Octets 8) :
    InStep (Nfs4Client.onRpc ((Nfs4Client.readdirPage dir cookie cookieverf).send 0))
      (Nfs41Client.call (Nfs41Client.readdirPage dir cookie cookieverf)) :=
  InStep.call (d := do decodePutfhResult; decodeReaddirResult) rfl rfl rfl rfl
    (of_decide_eq_true rfl) rfl rfl

/-- The page loop: a page, and the loop again unless the page was the last one. -/
theorem readdirLoop_inStep (dir : Nfs4Fh) :
    ∀ (fuel : ℕ) (cookie : UInt64) (cookieverf : Octets 8) (all : List Nfs4DirEntry),
      InStep (Nfs4Client.readdirLoop dir fuel cookie cookieverf all)
        (Nfs41Client.readdirLoop dir fuel cookie cookieverf all)
  | 0, _, _, _ => fun _ _ => .cut
  | fuel + 1, cookie, cookieverf, all => by
    refine (readdirPage_inStep dir cookie cookieverf).bind fun page => ?_
    cases heof : page.eof with
    | true =>
      simp only [if_true]
      exact InStep.pure _
    | false =>
      simp only [Bool.false_eq_true, if_false]
      exact readdirLoop_inStep dir fuel _ _ _

/-- What two methods do, one of each facade, when they receive replies that agree: their requests
agree, and so do their results. -/
def FacadesAgree {α : Type} (m : ClientM Nfs4Client α) (m' : ClientM Nfs41Client α) : Prop :=
  ∀ (c : Nfs4Client) (c' : Nfs41Client) (rs rs' : List Received),
    List.Forall₂ RepliesAgree rs rs' →
      List.Forall₂ RequestsAgree ((m c).play rs).1 ((m' c').play rs').1 ∧
      ((m c).play rs).2.map Prod.fst = ((m' c').play rs').2.map Prod.fst

theorem InStep.facadesAgree {α : Type} {m : ClientM Nfs4Client α} {m' : ClientM Nfs41Client α}
    (h : InStep m m') : FacadesAgree m m' := by
  intro c c' rs rs' hrs
  obtain ⟨hqs, hends⟩ := (h c c').play hrs
  refine ⟨hqs, ?_⟩
  generalize ((m c).play rs).2 = o, ((m' c').play rs').2 = o' at hends
  cases hends with
  | some heq => exact congrArg some heq
  | none => rfl

/-- **The two facades agree.** Each method that both have, apart from the opens, sends the same
operations from both and makes the same of the same results, whatever they are; a result is a value or
an exception. -/
theorem facades_agree (fuel : ℕ) :
    (∀ m : FileMethod, FacadesAgree (Nfs4Client.perform fuel (.file m))
      (Nfs41Client.perform fuel (.file m))) ∧
    ∀ dir : Nfs4Fh, FacadesAgree (Nfs4Client.perform fuel (.readdir dir))
      (Nfs41Client.perform fuel (.readdir dir)) :=
  ⟨fun m => (fileCall_inStep m).facadesAgree,
    fun dir => (readdirLoop_inStep dir fuel 0 (Octets.zero 8) []).facadesAgree⟩

end NfsClient
