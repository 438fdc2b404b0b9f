import NfsClient.Nfs4.Protocol
import NfsClient.Nfs4.Client40
import NfsClient.Nfs4.Client41

/-!
# The decoders read the protocol

Each result decoder, on the encoding of a success result of its operation, yields the part of the
result that the client wants and stands behind its last byte (`decode*_reads`). The decoders take
booleans and enumerations for words, skip bitmaps by their count, and take both arms of a space
limit for two words; the lemmas of this module say that none of this loses the place.
-/

namespace NfsClient

open Xdr Reader

/-- A success result on the wire. -/
theorem writeResult (o : Op) (r : o.Res) :
    ResOp.format.write ⟨o, r⟩ = word o.code ++ (word 0 ++ o.resFormat.write r) := rfl

/-! ### Status words -/

theorem opStatus_word_reads (name : String) (code : UInt32) :
    Reads (opStatus name) (word code ++ word 0) () :=
  (getUint32_reads code).bind ((getUint32_reads 0).bind_nil (throwIf_reads (not_not.mpr rfl)))

theorem opStatus_bind_reads {α : Type} {name : String} {f : Unit → XdrDecoder α} {bs : Bytes}
    {a : α} (code : UInt32) (hf : Reads (f ()) bs a) :
    Reads (opStatus name >>= f) (word code ++ (word 0 ++ bs)) a := by
  rw [← List.append_assoc]
  exact (opStatus_word_reads name code).bind hf

/-- A decoder that stops at the status reads a result without a body. -/
theorem opStatus_reads {o : Op} {name : String} {r : o.Res} (h : o.resFormat.write r = []) :
    Reads (opStatus name) (ResOp.format.write ⟨o, r⟩) () := by
  rw [writeResult, h]
  simpa using opStatus_word_reads name o.code

theorem checkCompoundStatus_reads {tag : Bytes} (h : tag.length < 2 ^ 32) (n : UInt32) :
    Reads checkCompoundStatus (word 0 ++ (varOpaque tag ++ word n)) () :=
  (getUint32_reads 0).bind <| throwIf_bind_reads (not_not.mpr rfl) <|
    (getOpaque_reads h).bind <| (getUint32_reads n).bind_nil (Reads.pure ())

/-! ### Common parts -/

/-- A boolean is read as a word. -/
theorem getUint32_bool_reads (b : Bool) : Reads getUint32 (Xdr.bool b) (if b then 1 else 0) :=
  getUint32_reads _

theorem skipChangeInfo4_reads (ci : ChangeInfo) :
    Reads skipChangeInfo4 (Wire.changeInfo4.write ci) () :=
  (getUint32_bool_reads ci.1).bind <| (getUint64_reads ci.2.1).bind <|
    (getUint64_reads ci.2.2).bind_nil (Reads.pure ())

/-- The count of a bitmap and the words it counts. -/
theorem skipBitmap_reads {bm : List UInt32} (h : Wire.bitmap4.Fits bm) :
    Reads (do let bm_size ← getUint32; skipUint32s bm_size) (Wire.bitmap4.write bm) () :=
  (getUint32_reads _).bind (skipUint32s_reads h.1)

theorem skipBitmap_bind_reads {α : Type} {f : XdrDecoder α} {bm : List UInt32} {bs : Bytes} {a : α}
    (h : Wire.bitmap4.Fits bm) (hf : Reads f bs a) :
    Reads (do let bm_size ← getUint32; skipUint32s bm_size; f) (Wire.bitmap4.write bm ++ bs) a := by
  change Reads _ ((word (UInt32.ofNat bm.length) ++ bm.flatMap word) ++ bs) a
  rw [List.append_assoc]
  exact (getUint32_reads _).bind ((skipUint32s_reads h.1).bind hf)

theorem skipNfsace4_reads {ace : Ace} (h : DelegType.ace.Fits ace) :
    Reads skipNfsace4 (DelegType.ace.write ace) () :=
  (getUint32_reads ace.1).bind <| (getUint32_reads ace.2.1).bind <|
    (getUint32_reads ace.2.2.1).bind <| (getOpaque_reads h.2.2.2).bind_nil (Reads.pure ())

/-- Either arm of a space limit is two words. -/
theorem exists_words_limit (limit : (l : LimitBy) × l.Arm) :
    ∃ w₀ w₁ w₂ : UInt32, LimitBy.format.write limit = word w₀ ++ (word w₁ ++ word w₂) := by
  obtain ⟨l, arm⟩ := limit
  cases l with
  | SIZE =>
    obtain ⟨hi, lo, h, -⟩ := exists_words_hyper arm
    exact ⟨1, hi, lo, by rw [← h]; rfl⟩
  | BLOCKS => exact ⟨2, arm.1, arm.2, rfl⟩

theorem skipDelegation_reads {d : (t : DelegType) × t.Arm} (h : DelegType.format.Fits d) :
    Reads skipDelegation (DelegType.format.write d) () := by
  obtain ⟨t, arm⟩ := d
  unfold skipDelegation
  cases t with
  | NONE =>
    refine (getUint32_reads 0).bind ?_
    rw [if_neg (by decide), if_neg (by decide)]
    exact Reads.pure ()
  | READ =>
    obtain ⟨stateid, recalled, ace⟩ := arm
    refine (getUint32_reads 1).bind ?_
    rw [if_pos rfl]
    exact (decodeStateid4_reads stateid).bind <| (getUint32_bool_reads recalled).bind <|
      skipNfsace4_reads h.2.2
  | WRITE =>
    -- a WRITE delegation has the three words of its limit in front of the ace
    obtain ⟨stateid, recalled, limit, ace⟩ := arm
    obtain ⟨w₀, w₁, w₂, hlimit⟩ := exists_words_limit limit
    have hwrite : DelegType.format.write ⟨.WRITE, (stateid, recalled, limit, ace)⟩ =
        word 2 ++ (stateid.wire ++ (Xdr.bool recalled ++ (word w₀ ++ (word w₁ ++ (word w₂ ++
          DelegType.ace.write ace))))) := by
      rw [← List.append_assoc (word w₁), ← List.append_assoc (word w₀), ← hlimit]
      rfl
    rw [hwrite]
    refine (getUint32_reads 2).bind ?_
    rw [if_neg (by decide), if_pos rfl]
    exact (decodeStateid4_reads stateid).bind <| (getUint32_bool_reads recalled).bind <|
      (getUint32_reads w₀).bind <| (getUint32_reads w₁).bind <| (getUint32_reads w₂).bind <|
      skipNfsace4_reads h.2.2.2

/-! ### Results -/

theorem decodePutfhResult_reads (fh : Nfs4Fh) {o : Op} {r : o.Res}
    (ho : o = if fh.data = [] then .PUTROOTFH else .PUTFH) :
    Reads decodePutfhResult (ResOp.format.write ⟨o, r⟩) () := by
  split at ho <;> subst ho <;> exact opStatus_reads rfl

theorem decodeSavefhResult_reads :
    Reads decodeSavefhResult (ResOp.format.write ⟨.SAVEFH, ()⟩) () := opStatus_reads rfl

theorem decodeLookupResult_reads :
    Reads decodeLookupResult (ResOp.format.write ⟨.LOOKUP, ()⟩) () := opStatus_reads rfl

theorem decodeRenewResult_reads :
    Reads decodeRenewResult (ResOp.format.write ⟨.RENEW, ()⟩) () := opStatus_reads rfl

theorem decodeGetfhResult_reads {fh : Bytes} (h : fh.length < 2 ^ 32) :
    Reads decodeGetfhResult (ResOp.format.write ⟨.GETFH, fh⟩) ⟨fh⟩ :=
  opStatus_bind_reads _ (@decodeNfs4fh_reads ⟨fh⟩ h)

theorem decodeAccessResult_reads (r : UInt32 × UInt32) :
    Reads decodeAccessResult (ResOp.format.write ⟨.ACCESS, r⟩) ⟨r.1, r.2⟩ :=
  opStatus_bind_reads _ <| (getUint32_reads r.1).bind <|
    (getUint32_reads r.2).bind_nil (Reads.pure _)

theorem decodeOpenResult_reads {r : OpenRes} (h : Wire.openRes.Fits r) :
    Reads decodeOpenResult (ResOp.format.write ⟨.OPEN, r⟩) ⟨r.stateid, r.rflags⟩ := by
  obtain ⟨-, -, -, hattrset, hdeleg⟩ := h
  refine opStatus_bind_reads _ <| (decodeStateid4_reads r.stateid).bind <|
    (skipChangeInfo4_reads r.cinfo).bind <| (getUint32_reads r.rflags).bind <|
    skipBitmap_bind_reads hattrset ?_
  exact (skipDelegation_reads hdeleg).bind_nil (Reads.pure _)

theorem decodeOpenConfirmResult_reads (stateid : Stateid4) :
    Reads decodeOpenConfirmResult (ResOp.format.write ⟨.OPEN_CONFIRM, stateid⟩) stateid :=
  opStatus_bind_reads _ (decodeStateid4_reads stateid)

theorem decodeCloseResult_reads (stateid : Stateid4) :
    Reads decodeCloseResult (ResOp.format.write ⟨.CLOSE, stateid⟩) () :=
  opStatus_bind_reads _ ((decodeStateid4_reads stateid).bind_nil (Reads.pure ()))

theorem decodeReadResult_reads {eof : Bool} {data : Bytes} (h : data.length < 2 ^ 32) :
    Reads decodeReadResult (ResOp.format.write ⟨.READ, (eof, data)⟩) data :=
  opStatus_bind_reads _ ((getUint32_bool_reads eof).bind (getOpaque_reads h))

theorem decodeWriteResult_reads (count committed : UInt32) (verf : Octets 8) :
    Reads decodeWriteResult (ResOp.format.write ⟨.WRITE, (count, committed, verf)⟩)
      ⟨count, ⟨committed⟩, verf⟩ :=
  opStatus_bind_reads _ <| (getUint32_reads count).bind <| (getUint32_reads committed).bind <|
    (getArray_reads verf).bind_nil (Reads.pure _)

theorem decodeCommitResult_reads (verf : Octets 8) :
    Reads decodeCommitResult (ResOp.format.write ⟨.COMMIT, verf⟩) verf :=
  opStatus_bind_reads _ (getArray_reads verf)

theorem decodeCreateResult_reads {cinfo : ChangeInfo} {attrset : List UInt32}
    (h : Wire.bitmap4.Fits attrset) :
    Reads decodeCreateResult (ResOp.format.write ⟨.CREATE, (cinfo, attrset)⟩) () :=
  opStatus_bind_reads _ ((skipChangeInfo4_reads cinfo).bind (skipBitmap_reads h))

theorem decodeRemoveResult_reads (cinfo : ChangeInfo) :
    Reads decodeRemoveResult (ResOp.format.write ⟨.REMOVE, cinfo⟩) () :=
  opStatus_bind_reads _ (skipChangeInfo4_reads cinfo)

theorem decodeRenameResult_reads (source target : ChangeInfo) :
    Reads decodeRenameResult (ResOp.format.write ⟨.RENAME, (source, target)⟩) () :=
  opStatus_bind_reads _ ((skipChangeInfo4_reads source).bind (skipChangeInfo4_reads target))

theorem decodeReadlinkResult_reads {link : Bytes} (h : link.length < 2 ^ 32) :
    Reads decodeReadlinkResult (ResOp.format.write ⟨.READLINK, link⟩) link :=
  opStatus_bind_reads _ (getOpaque_reads h)

theorem decodeSetattrResult_reads {attrsset : List UInt32} (h : Wire.bitmap4.Fits attrsset) :
    Reads decodeSetattrResult (ResOp.format.write ⟨.SETATTR, attrsset⟩) () :=
  opStatus_bind_reads _ (skipBitmap_reads h)

theorem decodeSequence41Result_reads (r : SequenceRes) :
    Reads decodeSequence41Result (ResOp.format.write ⟨.SEQUENCE, r⟩) () :=
  opStatus_bind_reads _ <| (getFixedOpaque_reads r.sessionid.2).bind <|
    (getUint32_reads r.sequenceid).bind <| (getUint32_reads r.slotid).bind <|
    (getUint32_reads r.highest_slotid).bind <| (getUint32_reads r.target_highest_slotid).bind <|
    (getUint32_reads r.status_flags).bind_nil (Reads.pure ())

theorem skipImplId_reads {id : ImplId} (h : Wire.implId.Fits id) :
    Reads skipImplId (Wire.implId.write id) () :=
  (getOpaque_reads h.1).bind <| (getOpaque_reads h.2.1).bind <|
    (getUint64_reads id.2.2.1).bind <| (getUint32_reads id.2.2.2).bind_nil (Reads.pure ())

/-- Implementation ids are stepped over by their count. -/
theorem skipImplIds_bind_reads {α : Type} {f : List Unit → XdrDecoder α} {ids : List ImplId} {a : α}
    (h : (Format.array Wire.implId).Fits ids) (hf : ∀ us, Reads (f us) [] a) :
    Reads (do let n ← getUint32; let us ← times skipImplId n.toNat; f us)
      ((Format.array Wire.implId).write ids) a := by
  refine (getUint32_reads (UInt32.ofNat ids.length)).bind ?_
  rw [toNat_ofNat_of_lt h.1]
  exact (Reads.times fun id hid => skipImplId_reads (h.2 id hid)).bind_nil (hf _)

/-- Server owner, scope and implementation ids of any length are stepped over. -/
theorem decodeExchangeIdResult_reads {r : ExchangeIdRes} (h : Wire.exchangeIdRes.Fits r) :
    Reads decodeExchangeIdResult (ResOp.format.write ⟨.EXCHANGE_ID, r⟩)
      ⟨r.clientid, r.sequenceid⟩ := by
  obtain ⟨-, -, -, -, -, hmajor, hscope, himpl⟩ := h
  exact opStatus_bind_reads _ <| (getUint64_reads r.clientid).bind <|
    (getUint32_reads r.sequenceid).bind <| (getUint32_reads r.flags).bind <|
    (getUint32_reads 0).bind <| (getUint64_reads r.so_minor_id).bind <|
    (getOpaque_reads hmajor).bind <| (getOpaque_reads hscope).bind <|
    skipImplIds_bind_reads himpl fun _ => Reads.pure _

/-- Channel attributes are at least seven words. -/
theorem exists_words_channelAttrs (a : ChannelAttrs) :
    ∃ ws : List UInt32, Wire.channelAttrs.write a = ws.flatMap word ∧ 7 ≤ ws.length := by
  obtain ⟨headerpad, maxrequest, maxresponse, cached, maxops, maxrequests, rdma_ird⟩ := a
  refine ⟨headerpad :: maxrequest :: maxresponse :: cached :: maxops :: maxrequests ::
    UInt32.ofNat rdma_ird.length :: rdma_ird, rfl, ?_⟩
  simp

/-- As many words as are asked for are read, if they are there. -/
theorem times_getUint32_ok {n : ℕ} {ws : List UInt32} (h : n ≤ ws.length) (rest : Bytes) :
    times getUint32 n (ws.flatMap word ++ rest)
      = .ok (ws.take n, (ws.drop n).flatMap word ++ rest) := by
  have htimes := times_getUint32_reads (ws.take n)
  rw [List.length_take_of_le h] at htimes
  rw [← htimes, ← List.append_assoc, ← List.flatMap_append, List.take_append_drop]

/-- The session id is read; behind it the decoder takes fourteen words, which are there. -/
theorem decodeCreateSessionResult_ok (r : CreateSessionRes) (rest : Bytes) :
    ∃ rest', decodeCreateSessionResult (ResOp.format.write ⟨.CREATE_SESSION, r⟩ ++ rest)
      = .ok (r.sessionid, rest') := by
  obtain ⟨fore, hfore, hforelen⟩ := exists_words_channelAttrs r.fore
  obtain ⟨back, hback, hbacklen⟩ := exists_words_channelAttrs r.back
  have hlen : 7 + 7 ≤ (fore ++ back).length := by
    rw [List.length_append]
    omega
  -- both channels as one run of words: seven at least in each, and the ids of RDMA behind them
  have hbytes : ResOp.format.write ⟨.CREATE_SESSION, r⟩ ++ rest =
      (word Op.CREATE_SESSION.code ++ word 0) ++ (fixedOpaque r.sessionid.1 ++
        (word r.sequence ++ (word r.flags ++ ((fore ++ back).flatMap word ++ rest)))) := by
    have hwrite : ResOp.format.write ⟨.CREATE_SESSION, r⟩ =
        word Op.CREATE_SESSION.code ++ (word 0 ++ (fixedOpaque r.sessionid.1 ++
          (word r.sequence ++ (word r.flags ++
            (Wire.channelAttrs.write r.fore ++ Wire.channelAttrs.write r.back))))) := rfl
    rw [hwrite, hfore, hback, ← List.flatMap_append]
    simp only [List.append_assoc]
  rw [hbytes]
  unfold decodeCreateSessionResult
  rw [bind_of_ok (opStatus_word_reads _ _ _), bind_of_ok (getArray_reads _ _),
    bind_of_ok (getUint32_reads _ _), bind_of_ok (getUint32_reads _ _),
    bind_of_ok (times_getUint32_ok (by omega) rest),
    bind_of_ok (times_getUint32_ok (by rw [List.length_drop]; omega) rest)]
  exact ⟨_, rfl⟩

end NfsClient
