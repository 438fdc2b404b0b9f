import NfsClient.Nfs4.Decoders
import NfsClient.Nfs4.Encoders
import NfsClient.Nfs4.Fattr

/-!
# Success replies are decoded exactly

A conforming success reply to a COMPOUND has one success result for each operation, in order
(`SuccessReply.AnswersTo`); it may echo any tag and hold any values. On every such reply each
method returns what the reply says (`FileMethod.Encodes`), and its decoder stops at the last byte:
`replies_decode_exactly`. The results are decoded by position alone, so this rests on every
decoder consuming all of its own result, whatever the lengths in it.
-/

namespace NfsClient

open Xdr Reader Interaction

/-- A success reply with one result for each operation. -/
structure SuccessReply.AnswersTo (reply : SuccessReply) (ops : List ArgOp) : Prop where
  fits : SuccessReply.format.Fits reply
  opcodes : reply.results.map Sigma.fst = ops.map Sigma.fst

/-- The reply on the wire. -/
def SuccessReply.bytes (reply : SuccessReply) : Bytes := SuccessReply.format.write reply

/-- The tag and the results have counts, and each result fits. -/
theorem SuccessReply.fits_iff {reply : SuccessReply} :
    SuccessReply.format.Fits reply ↔ reply.tag.length < 2 ^ 32 ∧ reply.results.length < 2 ^ 32 ∧
      ∀ r ∈ reply.results, r.1.resFormat.Fits r.2 :=
  ⟨fun ⟨_, htag, hlen, hfits⟩ => ⟨htag, hlen, fun r hr => (hfits r hr).2⟩,
    fun ⟨htag, hlen, hfits⟩ => ⟨trivial, htag, hlen, fun r hr => ⟨trivial, hfits r hr⟩⟩⟩

/-! ### What a reply says -/

/-- The results say that the method has the value `v`. -/
def FileMethod.Encodes : (m : FileMethod) → List ResOp → m.Result → Prop
  | .lookup _ _, rs, v | .mkdir _ _ _, rs, v | .symlink _ _ _ _, rs, v =>
    rs.getLast? = some ⟨.GETFH, v.data⟩
  | .getattr _, rs, v => ∃ (bm : List UInt32) (attrs : ServerAttrs),
    rs.getLast? = some ⟨.GETATTR, (bm, attrs.attrlist)⟩ ∧ attrs.Describes bm ∧
      v = attrs.toFattr4
  | .access _ _, rs, v => ∃ supported, rs.getLast? = some ⟨.ACCESS, (supported, v)⟩
  | .read _ _ _, rs, v => ∃ eof, rs.getLast? = some ⟨.READ, (eof, v)⟩
  | .write _ _ _ _, rs, v => ∃ committed verf, rs.getLast? = some ⟨.WRITE, (v, committed, verf)⟩
  | .commit _ _ _, rs, v => rs.getLast? = some ⟨.COMMIT, v⟩
  | .readlink _, rs, v => rs.getLast? = some ⟨.READLINK, v⟩
  | .close _, _, _ | .remove _ _, _, _ | .rename _ _ _ _, _, _ | .setattr _ _, _, _ => True

/-- The results of OPEN and GETFH at the end of a reply. -/
def OpenEncodes (rs : List ResOp) (v : Open4Result × Nfs4Fh) : Prop :=
  ∃ pre, ∃ res : OpenRes, rs = pre ++ [⟨.OPEN, res⟩, ⟨.GETFH, v.2.data⟩] ∧
    v.1 = ⟨res.stateid, res.rflags⟩

/-! ### The decoders of the methods -/

/-- The decoding calls of a method on its own results. -/
def FileMethod.decodeResults : (m : FileMethod) → XdrDecoder m.Result
  | .lookup _ _ => do decodePutfhResult; decodeLookupResult; decodeGetfhResult
  | .getattr _ => do decodePutfhResult; decodeGetattrResult
  | .access _ _ => do decodePutfhResult; let r ← decodeAccessResult; return r.access
  | .close _ => do decodePutfhResult; decodeCloseResult
  | .read _ _ _ => do decodePutfhResult; decodeReadResult
  | .write _ _ _ _ => do decodePutfhResult; let r ← decodeWriteResult; return r.count
  | .commit _ _ _ => do decodePutfhResult; decodeCommitResult
  | .mkdir _ _ _ | .symlink _ _ _ _ => do
    decodePutfhResult; decodeCreateResult; decodeGetfhResult
  | .remove _ _ => do decodePutfhResult; decodeRemoveResult
  | .rename _ _ _ _ => do
    decodePutfhResult; decodeSavefhResult; decodePutfhResult; decodeRenameResult
  | .readlink _ => do decodePutfhResult; decodeReadlinkResult
  | .setattr _ _ => do decodePutfhResult; decodeSetattrResult

/-- The decoding calls of `do_open` on its own results. -/
def decodeOpenResults : XdrDecoder (Open4Result × Nfs4Fh) := do
  decodePutfhResult
  let open_res ← decodeOpenResult
  let fh ← decodeGetfhResult
  return (open_res, fh)

theorem Nfs4Client.fileCall_decode (m : FileMethod) :
    (Nfs4Client.fileCall m).decode = (do checkCompoundStatus; m.decodeResults) := by
  cases m <;> rfl

theorem Nfs41Client.fileCall_decode (m : FileMethod) :
    (Nfs41Client.fileCall m).decode =
      (do checkCompoundStatus; decodeSequence41Result; m.decodeResults) := by
  cases m <;> rfl

/-! ### Reading results -/

/-- The encodings of a list of results. -/
def writeResults (rs : List ResOp) : Bytes := rs.flatMap ResOp.format.write

/-- The first result, when the opcodes are known. -/
theorem exists_cons_of_opcodes {rs : List ResOp} {o : Op} {os : List Op}
    (h : rs.map Sigma.fst = o :: os) :
    ∃ (r : o.Res) (rest : List ResOp), rs = ⟨o, r⟩ :: rest ∧ rest.map Sigma.fst = os := by
  obtain ⟨⟨o', r⟩, rest, rfl, ho, hrest⟩ := List.map_eq_cons_iff.mp h
  cases ho
  exact ⟨r, rest, rfl, hrest⟩

theorem eq_nil_of_opcodes {rs : List ResOp} (h : rs.map Sigma.fst = []) : rs = [] :=
  List.map_eq_nil_iff.mp h

theorem fst_fhOp (fh : Nfs4Fh) :
    (fhOp fh).1 = if fh.data = [] then Op.PUTROOTFH else Op.PUTFH := by
  unfold fhOp
  split <;> rfl

section Positions

variable {α : Type} {fh : Nfs4Fh} {rs : List ResOp} {d : XdrDecoder α} {v : α}

/-- A filehandle and one operation. -/
theorem reads_two {o : Op} (hfits : ∀ r ∈ rs, r.1.resFormat.Fits r.2)
    (hops : rs.map Sigma.fst = [(fhOp fh).1, o])
    (hd : ∀ r : o.Res, o.resFormat.Fits r → rs.getLast? = some ⟨o, r⟩ →
      Reads d (ResOp.format.write ⟨o, r⟩) v) :
    Reads (do decodePutfhResult; d) (writeResults rs) v := by
  obtain ⟨r₁, rest₁, rfl, h₁⟩ := exists_cons_of_opcodes hops
  obtain ⟨r₂, rest₂, rfl, h₂⟩ := exists_cons_of_opcodes h₁
  obtain rfl := eq_nil_of_opcodes h₂
  simp only [writeResults, List.flatMap_cons, List.flatMap_nil, List.append_nil]
  exact (decodePutfhResult_reads fh (fst_fhOp fh)).bind (hd r₂ (hfits ⟨o, r₂⟩ (by simp)) rfl)

/-- A filehandle, an operation without a value, and the handle that it leaves. -/
theorem reads_getfh {o : Op} {d : XdrDecoder Unit} {v : Nfs4Fh}
    (hfits : ∀ r ∈ rs, r.1.resFormat.Fits r.2)
    (hops : rs.map Sigma.fst = [(fhOp fh).1, o, .GETFH])
    (hd : ∀ r : o.Res, o.resFormat.Fits r → Reads d (ResOp.format.write ⟨o, r⟩) ())
    (hv : rs.getLast? = some ⟨.GETFH, v.data⟩) :
    Reads (do decodePutfhResult; d; decodeGetfhResult) (writeResults rs) v := by
  obtain ⟨r₁, rest₁, rfl, h₁⟩ := exists_cons_of_opcodes hops
  obtain ⟨r₂, rest₂, rfl, h₂⟩ := exists_cons_of_opcodes h₁
  obtain ⟨r₃, rest₃, rfl, h₃⟩ := exists_cons_of_opcodes h₂
  obtain rfl := eq_nil_of_opcodes h₃
  cases hv
  simp only [writeResults, List.flatMap_cons, List.flatMap_nil, List.append_nil]
  exact (decodePutfhResult_reads fh (fst_fhOp fh)).bind <|
    (hd r₂ (hfits ⟨o, r₂⟩ (by simp))).bind
      (decodeGetfhResult_reads (hfits ⟨.GETFH, _⟩ (by simp)))

end Positions

/-- The decoder of a method reads the results of its operations. -/
theorem FileMethod.decodeResults_reads {m : FileMethod} {rs : List ResOp} {v : m.Result}
    (hfits : ∀ r ∈ rs, r.1.resFormat.Fits r.2)
    (hops : rs.map Sigma.fst = m.argOps.map Sigma.fst) (hv : m.Encodes rs v) :
    Reads m.decodeResults (writeResults rs) v := by
  cases m with
  | lookup dir name =>
    exact reads_getfh hfits hops (fun _ _ => decodeLookupResult_reads) hv
  | getattr fh =>
    obtain ⟨bm, attrs, hlast, hbm, rfl⟩ := hv
    refine reads_two hfits hops fun r hr hr' => ?_
    cases hlast.symm.trans hr'
    exact opStatus_bind_reads _ (decodeFattr4_reads hbm hr)
  | access fh mask =>
    obtain ⟨supported, hlast⟩ := hv
    refine reads_two hfits hops fun r _ hr' => ?_
    cases hlast.symm.trans hr'
    exact (decodeAccessResult_reads _).bind_nil (Reads.pure v)
  | close f => exact reads_two hfits hops fun r _ _ => decodeCloseResult_reads r
  | read f offset count =>
    obtain ⟨eof, hlast⟩ := hv
    refine reads_two hfits hops fun r hr hr' => ?_
    cases hlast.symm.trans hr'
    exact decodeReadResult_reads hr.2
  | write f offset stable data =>
    obtain ⟨committed, verf, hlast⟩ := hv
    refine reads_two hfits hops fun r _ hr' => ?_
    cases hlast.symm.trans hr'
    exact (decodeWriteResult_reads v committed verf).bind_nil (Reads.pure v)
  | commit f offset count =>
    refine reads_two hfits hops fun r _ hr' => ?_
    cases hv.symm.trans hr'
    exact decodeCommitResult_reads v
  | mkdir dir name attrs =>
    exact reads_getfh hfits hops (fun r hr => decodeCreateResult_reads hr.2) hv
  | remove dir name => exact reads_two hfits hops fun r _ _ => decodeRemoveResult_reads r
  | rename src_dir src_name dst_dir dst_name =>
    obtain ⟨r₁, rest₁, rfl, h₁⟩ := exists_cons_of_opcodes hops
    obtain ⟨r₂, rest₂, rfl, h₂⟩ := exists_cons_of_opcodes h₁
    obtain ⟨r₃, rest₃, rfl, h₃⟩ := exists_cons_of_opcodes h₂
    obtain ⟨r₄, rest₄, rfl, h₄⟩ := exists_cons_of_opcodes h₃
    obtain rfl := eq_nil_of_opcodes h₄
    simp only [writeResults, List.flatMap_cons, List.flatMap_nil, List.append_nil]
    -- two handles are set: source and target directory
    exact (decodePutfhResult_reads src_dir (fst_fhOp src_dir)).bind <|
      decodeSavefhResult_reads.bind <| (decodePutfhResult_reads dst_dir (fst_fhOp dst_dir)).bind <|
      decodeRenameResult_reads r₄.1 r₄.2
  | symlink dir name target attrs =>
    exact reads_getfh hfits hops (fun r hr => decodeCreateResult_reads hr.2) hv
  | readlink fh =>
    refine reads_two hfits hops fun r hr hr' => ?_
    cases hv.symm.trans hr'
    exact decodeReadlinkResult_reads hr
  | setattr fh attrs => exact reads_two hfits hops fun r hr _ => decodeSetattrResult_reads hr

/-- `do_open` reads the stateid and the flags of OPEN and the handle of GETFH. -/
theorem decodeOpenResults_reads {fh : Nfs4Fh} {rs : List ResOp} {v : Open4Result × Nfs4Fh}
    (hfits : ∀ r ∈ rs, r.1.resFormat.Fits r.2)
    (hops : rs.map Sigma.fst = [(fhOp fh).1, .OPEN, .GETFH]) (hv : OpenEncodes rs v) :
    Reads decodeOpenResults (writeResults rs) v := by
  obtain ⟨open_res, ⟨handle⟩⟩ := v
  obtain ⟨pre, res, rfl, rfl⟩ := hv
  -- before the two results that are used there is that of the directory
  obtain ⟨r, rfl⟩ : ∃ r : ((fhOp fh).1).Res, pre = [⟨(fhOp fh).1, r⟩] := by
    rw [List.map_append] at hops
    have hsplit : pre.map Sigma.fst ++ [.OPEN, .GETFH] = [(fhOp fh).1] ++ [.OPEN, .GETFH] := hops
    have hpre := List.append_cancel_right hsplit
    obtain ⟨r, rest, rfl, hrest⟩ := exists_cons_of_opcodes hpre
    exact ⟨r, congrArg _ (eq_nil_of_opcodes hrest)⟩
  simp only [writeResults, List.cons_append, List.nil_append, List.flatMap_cons, List.flatMap_nil,
    List.append_nil]
  exact (decodePutfhResult_reads fh (fst_fhOp fh)).bind <|
    (decodeOpenResult_reads (hfits ⟨.OPEN, res⟩ (by simp))).bind <|
    (decodeGetfhResult_reads (hfits ⟨.GETFH, _⟩ (by simp))).bind_nil
      (Reads.pure _)

/-! ### Whole replies -/

/-- Every success reply to `ops` is decoded to what it says, to its last byte. -/
def CompoundCall.DecodesExactly {α : Type} (q : CompoundCall α) (ops : List ArgOp)
    (Says : List ResOp → α → Prop) : Prop :=
  ∀ (reply : SuccessReply) (v : α), reply.AnswersTo ops → Says reply.results v →
    q.decode reply.bytes = .ok (v, [])

/-- The header of a reply and what is behind it. -/
theorem decode_reply {α : Type} {d : XdrDecoder α} {reply : SuccessReply} {v : α}
    (hfits : SuccessReply.format.Fits reply) (hd : Reads d (writeResults reply.results) v) :
    (do checkCompoundStatus; d : XdrDecoder α) reply.bytes = .ok (v, []) := by
  have h := ((checkCompoundStatus_reads hfits.2.1 (UInt32.ofNat reply.results.length)).bind
    (f := fun _ => d) hd).run
  simp only [List.append_assoc] at h
  exact h

/-- A call outside any session is exact if its decoder reads the results. -/
theorem CompoundCall.decodesExactly {α : Type} {q : CompoundCall α} {d : XdrDecoder α}
    {ops : List ArgOp} {Says : List ResOp → α → Prop}
    (hq : q.decode = (do checkCompoundStatus; d))
    (hd : ∀ rs v, (∀ r ∈ rs, r.1.resFormat.Fits r.2) → rs.map Sigma.fst = ops.map Sigma.fst →
      Says rs v → Reads d (writeResults rs) v) : q.DecodesExactly ops Says := by
  intro reply v hreply hv
  rw [hq]
  exact decode_reply hreply.fits (hd _ v (SuccessReply.fits_iff.mp hreply.fits).2.2 hreply.opcodes hv)

/-- A call inside a session reads the result of SEQUENCE first, which says nothing to it. -/
theorem CompoundCall.decodesExactly_sequence {α : Type} {q : CompoundCall α} {d : XdrDecoder α}
    {ops : List ArgOp} {Says : List ResOp → α → Prop} (sessionid : SessionId41)
    (slot_seqid : UInt32) (hq : q.decode = (do checkCompoundStatus; decodeSequence41Result; d))
    (hd : ∀ r rs v, (∀ r ∈ rs, r.1.resFormat.Fits r.2) → rs.map Sigma.fst = ops.map Sigma.fst →
      Says (r :: rs) v → Reads d (writeResults rs) v) :
    q.DecodesExactly (Nfs41Client.sequenceOp sessionid slot_seqid :: ops) Says := by
  refine CompoundCall.decodesExactly hq fun rs v hfits hops hv => ?_
  obtain ⟨r, rest, rfl, hrest⟩ := exists_cons_of_opcodes hops
  exact (decodeSequence41Result_reads r).bind
    (hd _ rest v (fun r' hr' => hfits r' (List.mem_cons_of_mem _ hr')) hrest hv)

/-- What a reply says to a method does not depend on the result of SEQUENCE. -/
theorem FileMethod.encodes_cons {m : FileMethod} {r : ResOp} {rs : List ResOp} {v : m.Result}
    (hops : rs.map Sigma.fst = m.argOps.map Sigma.fst) (h : m.Encodes (r :: rs) v) :
    m.Encodes rs v := by
  have hlast : (r :: rs).getLast? = rs.getLast? := by
    cases rs with
    | nil => cases m <;> cases hops
    | cons r' rs => rfl
  cases m <;> simp only [FileMethod.Encodes, hlast] at h ⊢ <;> exact h

theorem OpenEncodes.of_cons {r : ResOp} {rs : List ResOp} {v : Open4Result × Nfs4Fh}
    (hlen : rs.length = 3) (h : OpenEncodes (r :: rs) v) : OpenEncodes rs v := by
  obtain ⟨pre, res, heq, hv⟩ := h
  cases pre with
  | nil =>
    obtain ⟨-, rfl⟩ := List.cons_eq_cons.mp heq
    cases hlen
  | cons r' pre => exact ⟨pre, res, (List.cons_eq_cons.mp heq).2, hv⟩

/-! ### The calls of each facade -/

namespace Nfs4Client

theorem fileCall_exact (m : FileMethod) : (fileCall m).DecodesExactly m.argOps m.Encodes :=
  CompoundCall.decodesExactly (fileCall_decode m) fun _ _ => FileMethod.decodeResults_reads

theorem renew_exact (clientid : UInt64) :
    (renew clientid).DecodesExactly [⟨.RENEW, clientid⟩] fun _ _ => True := by
  refine CompoundCall.decodesExactly rfl fun rs v _ hops _ => ?_
  obtain ⟨r, rest, rfl, hrest⟩ := exists_cons_of_opcodes hops
  obtain rfl := eq_nil_of_opcodes hrest
  simpa only [writeResults, List.flatMap_cons, List.flatMap_nil, List.append_nil]
    using decodeRenewResult_reads

theorem openFile_exact (dir : Nfs4Fh) (name : Bytes) (share_access : UInt32) (create : Bool)
    (clientid : UInt64) (seqid : UInt32) :
    (openFile dir name share_access create clientid seqid).DecodesExactly
      [fhOp dir, ⟨.OPEN, openArgs owner name share_access create clientid seqid⟩, ⟨.GETFH, ()⟩]
      OpenEncodes :=
  CompoundCall.decodesExactly (d := decodeOpenResults) rfl fun _ _ => decodeOpenResults_reads

theorem openConfirm_exact (fh : Nfs4Fh) (stateid : Stateid4) (confirm_seqid : UInt32) :
    (openConfirm fh stateid confirm_seqid).DecodesExactly
      [fhOp fh, ⟨.OPEN_CONFIRM, (stateid, confirm_seqid)⟩]
      fun rs v => rs.getLast? = some ⟨.OPEN_CONFIRM, v⟩ := by
  refine CompoundCall.decodesExactly rfl fun rs v hfits hops hv => ?_
  refine reads_two hfits hops fun r _ hr => ?_
  cases hv.symm.trans hr
  exact decodeOpenConfirmResult_reads v

end Nfs4Client

namespace Nfs41Client

theorem fileCall_exact (m : FileMethod) (sessionid : SessionId41) (slot_seqid : UInt32) :
    (fileCall m).DecodesExactly (sequenceOp sessionid slot_seqid :: m.argOps) m.Encodes :=
  CompoundCall.decodesExactly_sequence sessionid slot_seqid (fileCall_decode m)
    fun _ _ _ hfits hops hv => FileMethod.decodeResults_reads hfits hops (m.encodes_cons hops hv)

theorem openFile_exact (dir : Nfs4Fh) (name : Bytes) (share_access : UInt32) (create : Bool)
    (clientid : UInt64) (seqid : UInt32) (sessionid : SessionId41) (slot_seqid : UInt32) :
    (openFile dir name share_access create clientid seqid).DecodesExactly
      [sequenceOp sessionid slot_seqid, fhOp dir,
        ⟨.OPEN, openArgs owner name share_access create clientid seqid⟩, ⟨.GETFH, ()⟩]
      OpenEncodes :=
  CompoundCall.decodesExactly_sequence (d := decodeOpenResults) sessionid slot_seqid rfl
    fun _ rs _ hfits hops hv => decodeOpenResults_reads hfits hops <|
      hv.of_cons (by simpa using congrArg List.length hops)

end Nfs41Client

/-! ### Methods -/

/-- An accepted, successful REPLY with the reply in it. -/
def SuccessReply.InRecord (reply : SuccessReply) (received : Received) : Prop :=
  ∃ (xid flavor : UInt32) (verf : Bytes), verf.length < 2 ^ 32 ∧
    received = .ok (acceptedHeader xid flavor verf ++ reply.bytes)

theorem SuccessReply.InRecord.parse {reply : SuccessReply} {received : Received}
    (h : reply.InRecord received) : received.bind parseReply = .ok reply.bytes := by
  obtain ⟨xid, flavor, verf, hverf, rfl⟩ := h
  exact parseReply_accepted xid flavor hverf reply.bytes

section Received

variable {α : Type} {q : CompoundCall α} {reply : SuccessReply} {received : Received} {v : α}

theorem CompoundCall.result_of_decode (hreply : reply.InRecord received)
    (hq : q.decode reply.bytes = .ok (v, [])) : q.result received = .ok v := by
  unfold CompoundCall.result
  rw [hreply.parse]
  simp only [Except.bind, hq, Except.map]

/-- `do_open` goes on to decode a success reply. -/
theorem openVerdict_of_inRecord (hfits : SuccessReply.format.Fits reply)
    (hreply : reply.InRecord received) : openVerdict received = .ok (some reply.bytes) := by
  have hstatus : ∃ x, checkCompoundStatus reply.bytes = .ok x := by
    have h := checkCompoundStatus_reads hfits.2.1 (UInt32.ofNat reply.results.length)
      (writeResults reply.results)
    simp only [List.append_assoc] at h
    exact ⟨_, h⟩
  obtain ⟨x, hx⟩ := hstatus
  exact openVerdict_of_status_ok hreply.parse hx

end Received

namespace Nfs4Client

/-- `do_open` is answered: with a success reply that does not ask for a confirmation, or with one
that does and a second one, to the OPEN_CONFIRM of the stateid that the first has opened. -/
inductive OpenAnswered (c : Nfs4Client) (dir : Nfs4Fh) (name : Bytes) (share_access : UInt32)
    (create : Bool) : List SuccessReply → Nfs4File → Prop
  | opened {reply : SuccessReply} {res : Open4Result} {fh : Nfs4Fh}
      (hreply : reply.AnswersTo [fhOp dir, ⟨.OPEN, openArgs owner name share_access create
        c.clientid_ (c.open_seqid_ + 1)⟩, ⟨.GETFH, ()⟩])
      (hres : OpenEncodes reply.results (res, fh))
      (hflags : res.rflags &&& OPEN4_RESULT_CONFIRM = 0) :
      OpenAnswered c dir name share_access create [reply] ⟨fh, res.stateid, c.open_seqid_ + 1⟩
  | confirmed {reply reply' : SuccessReply} {res : Open4Result} {fh : Nfs4Fh} {stateid : Stateid4}
      (hreply : reply.AnswersTo [fhOp dir, ⟨.OPEN, openArgs owner name share_access create
        c.clientid_ (c.open_seqid_ + 1)⟩, ⟨.GETFH, ()⟩])
      (hres : OpenEncodes reply.results (res, fh))
      (hflags : res.rflags &&& OPEN4_RESULT_CONFIRM ≠ 0)
      (hreply' : reply'.AnswersTo
        [fhOp fh, ⟨.OPEN_CONFIRM, (res.stateid, c.open_seqid_ + 1 + 1)⟩])
      (hstateid : reply'.results.getLast? = some ⟨.OPEN_CONFIRM, stateid⟩) :
      OpenAnswered c dir name share_access create [reply, reply']
        ⟨fh, stateid, c.open_seqid_ + 1 + 1⟩

/-- The method invoked on `c` is answered with these success replies, which say that its value
is `v`. -/
inductive Method.Answered (c : Nfs4Client) : (m : Method) → List SuccessReply → m.Result → Prop
  | file {m : FileMethod} {reply : SuccessReply} {v : m.Result}
      (hreply : reply.AnswersTo m.argOps) (hv : m.Encodes reply.results v) :
      Answered c (.file m) [reply] v
  | openRead {dir : Nfs4Fh} {name : Bytes} {replies : List SuccessReply} {f : Nfs4File}
      (h : OpenAnswered c dir name OPEN4_SHARE_ACCESS_READ false replies f) :
      Answered c (.openRead dir name) replies f
  | openWrite {dir : Nfs4Fh} {name : Bytes} {create : Bool} {replies : List SuccessReply}
      {f : Nfs4File} (h : OpenAnswered c dir name OPEN4_SHARE_ACCESS_WRITE create replies f) :
      Answered c (.openWrite dir name create) replies f
  | renew {reply : SuccessReply} (hreply : reply.AnswersTo [⟨.RENEW, c.clientid_⟩]) :
      Answered c .renew [reply] ()

theorem exec_onRpc_send {α : Type} (q : CompoundCall α) (c : Nfs4Client) (r : Received)
    (rs : List Received) :
    (onRpc (q.send 0)).exec c (r :: rs) = (some (q.result r, c.sent), rs) := by
  have hcall : (callCompound q.tag q.ops q.numOps 0).exec c.rpc_ (r :: rs)
      = (some (r.bind parseReply, c.rpc_.bump), rs) := rfl
  refine ClientM.exec_onMember (t := c.rpc_.bump) ?_
  unfold CompoundCall.send CompoundCall.result
  cases h : r.bind parseReply with
  | error e =>
    rw [h] at hcall
    exact ClientM.exec_bind_error hcall
  | ok reply =>
    rw [h] at hcall
    rw [ClientM.exec_bind hcall, ClientM.exec_decode]
    rfl

theorem exec_openLoop {α : Type} (q : CompoundCall α) (c : Nfs4Client) (fuel : ℕ) {r : Received}
    {reply : Bytes} (rs : List Received) (h : openVerdict r = .ok (some reply)) :
    (openLoop q (fuel + 1)).exec c (r :: rs) = (some (.ok reply, c.sent), rs) := by
  obtain ⟨hparse, x, hstatus⟩ := openVerdict_some h
  have hcall : (onRpc (callCompound q.tag q.ops q.numOps 0)).exec c (r :: rs)
      = (some (.ok reply, c.sent), rs) := by
    rw [← hparse]
    rfl
  rw [openLoop, ClientM.exec_bind hcall, hstatus]
  rfl

theorem exec_nextOpenSeqid (c : Nfs4Client) (rs : List Received) :
    nextOpenSeqid.exec c rs = (some (.ok (c.open_seqid_ + 1), c.opened), rs) := rfl

theorem exec_doOpen {c : Nfs4Client} {dir : Nfs4Fh} {name : Bytes} {share_access : UInt32}
    {create : Bool} {replies : List SuccessReply} {f : Nfs4File} {rs : List Received}
    (h : OpenAnswered c dir name share_access create replies f)
    (hrs : List.Forall₂ SuccessReply.InRecord replies rs) (fuel : ℕ) :
    ∃ c', (doOpen (fuel + 1) dir name share_access create).exec c rs
      = (some (.ok f, c'), []) := by
  -- up to the flags both kinds of answer are decoded alike
  have hopen : ∀ {reply : SuccessReply} {res : Open4Result} {fh : Nfs4Fh} {r : Received}
      {rs : List Received}, reply.AnswersTo [fhOp dir, ⟨.OPEN, openArgs owner name share_access
        create c.clientid_ (c.open_seqid_ + 1)⟩, ⟨.GETFH, ()⟩] →
      OpenEncodes reply.results (res, fh) → reply.InRecord r →
      (doOpen (fuel + 1) dir name share_access create).exec c (r :: rs) =
        (if res.rflags &&& OPEN4_RESULT_CONFIRM ≠ 0 then do
          let confirm_seqid ← nextOpenSeqid
          let stateid ← onRpc ((openConfirm fh res.stateid confirm_seqid).send 0)
          return ⟨fh, stateid, confirm_seqid⟩
        else return ⟨fh, res.stateid, c.open_seqid_ + 1⟩ : ClientM Nfs4Client Nfs4File).exec
          c.opened.sent rs := by
    intro reply res fh r rs hreply hres hr
    have hdecode : ((openFile dir name share_access create c.clientid_ (c.open_seqid_ + 1)).decode
        reply.bytes).map Prod.fst = .ok (res, fh) := by
      rw [openFile_exact _ _ _ _ _ _ reply (res, fh) hreply hres]
      rfl
    unfold doOpen
    rw [ClientM.exec_bind (exec_nextOpenSeqid c (r :: rs)),
      ClientM.exec_bind (m := ClientM.fields) (a := c.opened) rfl,
      ClientM.exec_bind (exec_openLoop _ _ fuel rs (openVerdict_of_inRecord hreply.fits hr))]
    refine ClientM.exec_bind (a := (res, fh)) ?_
    rw [ClientM.exec_decode]
    exact congrArg (fun x => (some (x, c.opened.sent), rs)) hdecode
  cases h with
  | opened hreply hres hflags =>
    obtain _ | ⟨hr, ⟨⟩⟩ := hrs
    refine ⟨c.opened.sent, ?_⟩
    rw [hopen hreply hres hr, if_neg (not_not.mpr hflags)]
    rfl
  | confirmed hreply hres hflags hreply' hstateid =>
    obtain _ | ⟨hr, _ | ⟨hr', ⟨⟩⟩⟩ := hrs
    have hconfirm := CompoundCall.result_of_decode hr'
      (openConfirm_exact _ _ _ _ _ hreply' hstateid)
    refine ⟨c.opened.sent.opened.sent, ?_⟩
    rw [hopen hreply hres hr, if_pos hflags, ClientM.exec_bind (exec_nextOpenSeqid _ _)]
    refine ClientM.exec_bind ((exec_onRpc_send _ _ _ _).trans ?_)
    exact congrArg (fun x => (some (x, c.opened.sent.opened.sent), [])) hconfirm

/-- A method that is answered returns what its replies say. -/
theorem exec_perform {c : Nfs4Client} {m : Method} {replies : List SuccessReply} {v : m.Result}
    {rs : List Received} (h : m.Answered c replies v)
    (hrs : List.Forall₂ SuccessReply.InRecord replies rs) (fuel : ℕ) :
    ∃ c', (perform (fuel + 1) m).exec c rs = (some (.ok v, c'), []) := by
  cases h with
  | file hreply hv =>
    obtain _ | ⟨hr, ⟨⟩⟩ := hrs
    have hresult := CompoundCall.result_of_decode hr (fileCall_exact _ _ _ hreply hv)
    exact ⟨c.sent, (exec_onRpc_send _ _ _ _).trans (by rw [hresult])⟩
  | openRead h => exact exec_doOpen h hrs fuel
  | openWrite h => exact exec_doOpen h hrs fuel
  | renew hreply =>
    obtain _ | ⟨hr, ⟨⟩⟩ := hrs
    have hresult := CompoundCall.result_of_decode hr (renew_exact c.clientid_ _ () hreply trivial)
    refine ⟨c.sent, ?_⟩
    exact (ClientM.exec_bind (m := ClientM.fields) (a := c) rfl).trans
      ((exec_onRpc_send _ _ _ _).trans (by rw [hresult]))

end Nfs4Client

namespace Nfs41Client

/-- The method invoked on `c` is answered with a success reply, which says that its value is `v`. A
server that supports sessions never asks for a confirmation. -/
inductive Method.Answered (c : Nfs41Client) : (m : Method) → SuccessReply → m.Result → Prop
  | file {m : FileMethod} {reply : SuccessReply} {v : m.Result}
      (hreply : reply.AnswersTo (sequenceOp c.sessionid_ c.slot_seqid_ :: m.argOps))
      (hv : m.Encodes reply.results v) : Answered c (.file m) reply v
  | openRead {dir : Nfs4Fh} {name : Bytes} {reply : SuccessReply} {res : Open4Result} {fh : Nfs4Fh}
      (hreply : reply.AnswersTo [sequenceOp c.sessionid_ c.slot_seqid_, fhOp dir,
        ⟨.OPEN, openArgs owner name OPEN4_SHARE_ACCESS_READ false c.clientid_
          (c.open_seqid_ + 1)⟩, ⟨.GETFH, ()⟩])
      (hres : OpenEncodes reply.results (res, fh))
      (hflags : res.rflags &&& OPEN4_RESULT_CONFIRM = 0) :
      Answered c (.openRead dir name) reply ⟨fh, res.stateid, c.open_seqid_ + 1⟩
  | openWrite {dir : Nfs4Fh} {name : Bytes} {create : Bool} {reply : SuccessReply}
      {res : Open4Result} {fh : Nfs4Fh}
      (hreply : reply.AnswersTo [sequenceOp c.sessionid_ c.slot_seqid_, fhOp dir,
        ⟨.OPEN, openArgs owner name OPEN4_SHARE_ACCESS_WRITE create c.clientid_
          (c.open_seqid_ + 1)⟩, ⟨.GETFH, ()⟩])
      (hres : OpenEncodes reply.results (res, fh))
      (hflags : res.rflags &&& OPEN4_RESULT_CONFIRM = 0) :
      Answered c (.openWrite dir name create) reply ⟨fh, res.stateid, c.open_seqid_ + 1⟩

theorem exec_nextOpenSeqid (c : Nfs41Client) (rs : List Received) :
    nextOpenSeqid.exec c rs = (some (.ok (c.open_seqid_ + 1), c.opened), rs) := rfl

theorem exec_compound41 {α : Type} (q : CompoundCall α) (c : Nfs41Client) (r : Received)
    (rs : List Received) :
    (compound41 q.tag q.ops q.numOps).exec c (r :: rs)
      = (some (r.bind parseReply, c.sent), rs) := rfl

theorem exec_call {α : Type} (q : CompoundCall α) (c : Nfs41Client) (r : Received)
    (rs : List Received) : (call q).exec c (r :: rs) = (some (q.result r, c.sent), rs) := by
  have hcall := exec_compound41 q c r rs
  unfold call CompoundCall.result
  cases h : r.bind parseReply with
  | error e =>
    rw [h] at hcall
    exact ClientM.exec_bind_error hcall
  | ok reply =>
    rw [h] at hcall
    rw [ClientM.exec_bind hcall, ClientM.exec_decode]
    rfl

theorem exec_openLoop {α : Type} (q : CompoundCall α) (c : Nfs41Client) (fuel : ℕ) {r : Received}
    {reply : Bytes} (rs : List Received) (h : openVerdict r = .ok (some reply)) :
    (openLoop q (fuel + 1)).exec c (r :: rs) = (some (.ok reply, c.sent), rs) := by
  obtain ⟨hparse, x, hstatus⟩ := openVerdict_some h
  have hcall : (compound41 q.tag q.ops q.numOps).exec c (r :: rs)
      = (some (.ok reply, c.sent), rs) := by
    rw [← hparse]
    rfl
  rw [openLoop, ClientM.exec_bind hcall, hstatus]
  rfl

/-- The first reply that is handed over decides. -/
theorem exec_doOpen_decode {c : Nfs41Client} {dir : Nfs4Fh} {name : Bytes} {share_access : UInt32}
    {create : Bool} {r : Received} {reply : Bytes} (hr : openVerdict r = .ok (some reply))
    (fuel : ℕ) :
    (doOpen (fuel + 1) dir name share_access create).exec c [r] =
      (some ((((openFile dir name share_access create c.clientid_ (c.open_seqid_ + 1)).decode
        reply).map Prod.fst).bind fun (open_res, fh) =>
          if open_res.rflags &&& OPEN4_RESULT_CONFIRM ≠ 0 then
            .error (.runtimeError "NFSv4.1 server set OPEN4_RESULT_CONFIRM — protocol error")
          else .ok ⟨fh, open_res.stateid, c.open_seqid_ + 1⟩, c.opened.sent), []) := by
  unfold doOpen
  rw [ClientM.exec_bind (exec_nextOpenSeqid c [r]),
    ClientM.exec_bind (m := ClientM.fields) (a := c.opened) rfl,
    ClientM.exec_bind (exec_openLoop _ _ fuel [] hr)]
  have hclientid : c.opened.clientid_ = c.clientid_ := rfl
  rw [hclientid]
  generalize (openFile dir name share_access create c.clientid_ (c.open_seqid_ + 1)).decode = d
  have hexec : (ClientM.decode d reply).exec c.opened.sent []
      = (some ((d reply).map Prod.fst, c.opened.sent), []) := ClientM.exec_decode
  cases hdec : d reply with
  | error e =>
    rw [hdec] at hexec
    exact ClientM.exec_bind_error hexec
  | ok x =>
    rw [hdec] at hexec
    refine (ClientM.exec_bind hexec).trans ?_
    change (if x.1.1.rflags &&& OPEN4_RESULT_CONFIRM ≠ 0 then _ else _ :
      ClientM Nfs41Client Nfs4File).exec _ _ = _
    simp only [Except.map, Except.bind]
    split <;> rfl

theorem exec_doOpen {c : Nfs41Client} {dir : Nfs4Fh} {name : Bytes} {share_access : UInt32}
    {create : Bool} {reply : SuccessReply} {res : Open4Result} {fh : Nfs4Fh} {r : Received}
    (hreply : reply.AnswersTo [sequenceOp c.sessionid_ c.slot_seqid_, fhOp dir, ⟨.OPEN,
      openArgs owner name share_access create c.clientid_ (c.open_seqid_ + 1)⟩, ⟨.GETFH, ()⟩])
    (hres : OpenEncodes reply.results (res, fh)) (hflags : res.rflags &&& OPEN4_RESULT_CONFIRM = 0)
    (hr : reply.InRecord r) (fuel : ℕ) :
    (doOpen (fuel + 1) dir name share_access create).exec c [r]
      = (some (.ok ⟨fh, res.stateid, c.open_seqid_ + 1⟩, c.opened.sent), []) := by
  have hdecode := openFile_exact _ _ _ _ _ _ _ _ reply (res, fh) hreply hres
  rw [exec_doOpen_decode (openVerdict_of_inRecord hreply.fits hr) fuel, hdecode]
  simp only [Except.map, Except.bind, hflags, ne_eq, not_true_eq_false, if_false]

/-- A method that is answered returns what its reply says. -/
theorem exec_perform {c : Nfs41Client} {m : Method} {reply : SuccessReply} {v : m.Result}
    {r : Received} (h : m.Answered c reply v) (hr : reply.InRecord r) (fuel : ℕ) :
    ∃ c', (perform (fuel + 1) m).exec c [r] = (some (.ok v, c'), []) := by
  cases h with
  | file hreply hv =>
    have hresult := CompoundCall.result_of_decode hr (fileCall_exact _ _ _ _ _ hreply hv)
    exact ⟨c.sent, (exec_call _ _ _ _).trans (by rw [hresult])⟩
  | openRead hreply hres hflags => exact ⟨_, exec_doOpen hreply hres hflags hr fuel⟩
  | openWrite hreply hres hflags => exact ⟨_, exec_doOpen hreply hres hflags hr fuel⟩

end Nfs41Client

/-! ### Both facades -/

/-- **Positional decoding.** Every success reply to a COMPOUND of a method other than `readdir` is
decoded to its last byte and to the values it holds, and the method that receives it in an accepted
REPLY returns them. -/
theorem replies_decode_exactly :
    (∀ m, (Nfs4Client.fileCall m).DecodesExactly m.argOps m.Encodes) ∧
    (∀ clientid, (Nfs4Client.renew clientid).DecodesExactly [⟨.RENEW, clientid⟩]
      fun _ _ => True) ∧
    (∀ dir name share_access create clientid seqid,
      (Nfs4Client.openFile dir name share_access create clientid seqid).DecodesExactly
        [fhOp dir, ⟨.OPEN, openArgs Nfs4Client.owner name share_access create clientid seqid⟩,
          ⟨.GETFH, ()⟩] OpenEncodes) ∧
    (∀ fh stateid confirm_seqid,
      (Nfs4Client.openConfirm fh stateid confirm_seqid).DecodesExactly
        [fhOp fh, ⟨.OPEN_CONFIRM, (stateid, confirm_seqid)⟩]
        fun rs v => rs.getLast? = some ⟨.OPEN_CONFIRM, v⟩) ∧
    (∀ m sessionid slot_seqid, (Nfs41Client.fileCall m).DecodesExactly
      (Nfs41Client.sequenceOp sessionid slot_seqid :: m.argOps) m.Encodes) ∧
    (∀ dir name share_access create clientid seqid sessionid slot_seqid,
      (Nfs41Client.openFile dir name share_access create clientid seqid).DecodesExactly
        [Nfs41Client.sequenceOp sessionid slot_seqid, fhOp dir,
          ⟨.OPEN, openArgs Nfs41Client.owner name share_access create clientid seqid⟩,
          ⟨.GETFH, ()⟩] OpenEncodes) ∧
    (∀ (c : Nfs4Client) (m : Nfs4Client.Method) (replies : List SuccessReply) (v : m.Result)
      (rs : List Received) (fuel : ℕ), m.Answered c replies v →
      List.Forall₂ SuccessReply.InRecord replies rs →
      ∃ c', (Nfs4Client.perform (fuel + 1) m).exec c rs = (some (.ok v, c'), [])) ∧
    ∀ (c : Nfs41Client) (m : Nfs41Client.Method) (reply : SuccessReply) (v : m.Result)
      (r : Received) (fuel : ℕ), m.Answered c reply v → reply.InRecord r →
      ∃ c', (Nfs41Client.perform (fuel + 1) m).exec c [r] = (some (.ok v, c'), []) :=
  ⟨Nfs4Client.fileCall_exact, Nfs4Client.renew_exact, Nfs4Client.openFile_exact,
    Nfs4Client.openConfirm_exact, Nfs41Client.fileCall_exact, Nfs41Client.openFile_exact,
    fun _ _ _ _ _ fuel h hrs => Nfs4Client.exec_perform h hrs fuel,
    fun _ _ _ _ _ fuel h hr => Nfs41Client.exec_perform h hr fuel⟩

/-- The reply to an OPEN, with a READ delegation, that asks for a confirmation. -/
def delegatedOpen : SuccessReply where
  tag := ascii "open"
  results := [⟨.PUTROOTFH, ()⟩,
    ⟨.OPEN, ⟨⟨1, Octets.zero 12⟩, (true, 4, 5), 6, [1, 0, 0],
      ⟨.READ, (Stateid4.anonymous, false, (0, 0, 129, ascii "OWNER@"))⟩⟩⟩, ⟨.GETFH, [9, 9]⟩]

/-- The reply to its OPEN_CONFIRM. -/
def confirmation : SuccessReply where
  tag := []
  results := [⟨.PUTFH, ()⟩, ⟨.OPEN_CONFIRM, ⟨2, Octets.zero 12⟩⟩]

/-- The file has the handle of the first reply and the stateid of the second. -/
theorem open_read_confirmed :
    ∃ c', (Nfs4Client.perform 1 (.openRead ⟨[]⟩ (ascii "a"))).exec Nfs4Client.fresh
      [.ok (acceptedHeader 1 0 [] ++ delegatedOpen.bytes),
        .ok (acceptedHeader 2 0 [] ++ confirmation.bytes)]
      = (some (.ok ⟨⟨[9, 9]⟩, ⟨2, Octets.zero 12⟩, 2⟩, c'), []) := by
  have hopen : SuccessReply.format.Fits delegatedOpen := by
    -- the delegation that comes with the OPEN is read and dropped
    have hbitmap : Wire.bitmap4.Fits [1, 0, 0] := ⟨by decide, fun _ _ => trivial⟩
    have hwho : (ascii "OWNER@").length < 2 ^ 32 := by decide
    have hfh : ([9, 9] : Bytes).length < 2 ^ 32 := by decide
    refine SuccessReply.fits_iff.mpr ⟨by decide, by decide, ?_⟩
    refine List.forall_mem_cons.mpr ⟨trivial, List.forall_mem_cons.mpr
      ⟨⟨⟨trivial, trivial⟩, ⟨trivial, trivial, trivial⟩, trivial, hbitmap,
        ⟨trivial, trivial⟩, trivial, trivial, trivial, trivial, hwho⟩,
        List.forall_mem_singleton.mpr hfh⟩⟩
  have hconfirm : SuccessReply.format.Fits confirmation :=
    SuccessReply.fits_iff.mpr ⟨by decide, by decide, List.forall_mem_cons.mpr
      ⟨trivial, List.forall_mem_singleton.mpr ⟨trivial, trivial⟩⟩⟩
  have hencodes : OpenEncodes delegatedOpen.results (⟨⟨1, Octets.zero 12⟩, 6⟩, ⟨[9, 9]⟩) :=
    ⟨[⟨.PUTROOTFH, ()⟩], _, rfl, rfl⟩
  exact replies_decode_exactly.2.2.2.2.2.2.1 Nfs4Client.fresh (.openRead ⟨[]⟩ (ascii "a"))
    [delegatedOpen, confirmation] _ _ 0
    (.openRead (.confirmed ⟨hopen, rfl⟩ hencodes (by decide) ⟨hconfirm, rfl⟩ rfl))
    (.cons ⟨1, 0, [], by decide, rfl⟩ (.cons ⟨2, 0, [], by decide, rfl⟩ .nil))

end NfsClient
