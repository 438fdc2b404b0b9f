import NfsClient.Nfs3.Client
import NfsClient.Nfs4.Compound
import NfsClient.Nfs4.Readdir

/-!
# Truncated replies

A reply may arrive cut short, or be answered by something that is no result at all. Each decoder of
the client is local (`Reader.Local`): the bytes that it takes decide what it returns, whatever is
behind them. So it reads all replies alike that begin with these bytes, and none that ends within
them (`reply_decoders_local`); no shorter listing, no shorter data and no default attributes come of
a reply that was cut.

Most decoders are local because they are made of local calls. Two are not made of them alone. The
list loops are given the number of all the bytes that are left as their fuel, which
`decodeList_local` shows to be of no account; and a `fattr4` has its values in a decoder of its own,
over bytes that were taken already (`withDecoder_local`).
-/

namespace NfsClient

open Xdr Reader

/-! ### NFSv3 -/

theorem decodeFh3_local : Local decodeFh3 := getOpaque_local.map _

theorem decodeFattr3_local : Local decodeFattr3 :=
  getUint32_local.bind fun _ => getUint32_local.bind fun _ => getUint32_local.bind fun _ =>
  getUint32_local.bind fun _ => getUint32_local.bind fun _ => getUint64_local.bind fun _ =>
  getUint64_local.bind fun _ => getUint32_local.bind fun _ => getUint32_local.bind fun _ =>
  getUint64_local.bind fun _ => getUint64_local.bind fun _ => getUint32_local.bind fun _ =>
  getUint32_local.bind fun _ => getUint32_local.bind fun _ => getUint32_local.bind fun _ =>
  getUint32_local.bind fun _ => getUint32_local.bind fun _ => .pure _

theorem skipPostOpAttr_local : Local skipPostOpAttr :=
  getUint32_local.bind fun _ => (decodeFattr3_local.bind fun _ => .pure ()).ite (.pure ())

theorem skipPreOpAttr_local : Local skipPreOpAttr :=
  getUint32_local.bind fun _ => ((getUint32_local.times 6).bind fun _ => .pure ()).ite (.pure ())

theorem skipWccData_local : Local skipWccData :=
  skipPreOpAttr_local.bind fun _ => skipPostOpAttr_local

namespace Nfs3

section

variable {α : Type} {name : String} {skip : XdrDecoder Unit} {f : XdrDecoder α}

theorem atOnce_local (hf : Local f) :
    Local (do let s ← getUint32; throwIf (s ≠ 0) (.nfsError s name); f) :=
  getUint32_local.bind fun _ => throwIf_local.bind fun _ => hf

theorem behind_local (hskip : Local skip) (hf : Local f) :
    Local (do let s ← getUint32; skip; throwIf (s ≠ 0) (.nfsError s name); f) :=
  getUint32_local.bind fun _ => hskip.bind fun _ => throwIf_local.bind fun _ => hf

theorem last_local (hskip : Local skip) :
    Local (do let s ← getUint32; skip; throwIf (s ≠ 0) (.nfsError s name)) :=
  getUint32_local.bind fun _ => hskip.bind fun _ => throwIf_local

end

theorem decodeObjectReply_local (proc : String) : Local (decodeObjectReply proc) :=
  atOnce_local <| getUint32_local.bind fun _ => throwIf_local.bind fun _ =>
    decodeFh3_local.bind fun _ => skipPostOpAttr_local.bind fun _ =>
    skipWccData_local.bind fun _ => .pure _

theorem decodeEntry_local : Local decodeEntry :=
  getUint64_local.bind fun _ => getString_local.bind fun _ => getUint64_local.bind fun _ => .pure _

/-- What `f` reads behind an optional part. -/
theorem optional_bind_local {α β : Type} {p : XdrDecoder α} {f : UInt32 → α → XdrDecoder β} {a : α}
    (hp : Local p) (hf : ∀ w x, Local (f w x)) :
    Local (do
      let follows ← getUint32
      let x ← if follows ≠ 0 then p else pure a
      f follows x) :=
  getUint32_local.bind fun w =>
    (hp.bind fun x => hf w x).ite ((Local.pure a).bind fun x => hf w x)

theorem decodeEntryPlus_local : Local decodeEntryPlus :=
  getUint64_local.bind fun _ => getString_local.bind fun _ => getUint64_local.bind fun _ =>
  optional_bind_local decodeFattr3_local fun _ _ =>
  optional_bind_local decodeFh3_local fun _ _ => .pure _

theorem decodeExports_local : Local decodeExports :=
  decodeList_local <| getString_local.bind fun _ =>
    (decodeList_local getString_local).bind fun _ => .pure _

theorem decodeMntReply_local : Local decodeMntReply := atOnce_local (getOpaque_local.map _)

theorem Call.decodeReply_local (c : Call) : Local c.decodeReply := by
  cases c with
  | getattr fh => exact atOnce_local decodeFattr3_local
  | setattr fh attrs guard => exact last_local skipWccData_local
  | lookup dir name =>
    exact atOnce_local <| decodeFh3_local.bind fun _ => skipPostOpAttr_local.bind fun _ =>
      skipPostOpAttr_local.bind fun _ => .pure _
  | access fh access_mask => exact behind_local skipPostOpAttr_local getUint32_local
  | readlink symlink_fh => exact behind_local skipPostOpAttr_local getString_local
  | read fh offset count =>
    exact behind_local skipPostOpAttr_local <| getUint32_local.bind fun _ =>
      getUint32_local.bind fun _ => getOpaque_local
  | write fh offset stable data =>
    exact behind_local skipWccData_local <| getUint32_local.bind fun _ =>
      getUint32_local.bind fun _ => (getArray_local 8).bind fun _ => .pure _
  | create dir name mode hmode attrs => exact decodeObjectReply_local _
  | createExclusive dir name verf => exact decodeObjectReply_local _
  | mkdir dir name attrs => exact decodeObjectReply_local _
  | symlink dir name target attrs => exact decodeObjectReply_local _
  | mknodFifo dir name attrs => exact decodeObjectReply_local _
  | mknodSocket dir name attrs => exact decodeObjectReply_local _
  | mknodChr dir name attrs spec => exact decodeObjectReply_local _
  | mknodBlk dir name attrs spec => exact decodeObjectReply_local _
  | remove dir name => exact atOnce_local skipWccData_local
  | rmdir dir name => exact atOnce_local skipWccData_local
  | rename from_dir from_name to_dir to_name =>
    exact getUint32_local.bind fun _ => skipWccData_local.bind fun _ =>
      skipWccData_local.bind fun _ => throwIf_local
  | link file link_dir link_name =>
    exact getUint32_local.bind fun _ => skipPostOpAttr_local.bind fun _ =>
      skipWccData_local.bind fun _ => throwIf_local
  | readdirPage dir cookie cookieverf count =>
    exact behind_local skipPostOpAttr_local <| (getArray_local 8).bind fun _ =>
      (decodeList_local decodeEntry_local).bind fun _ => getUint32_local.bind fun _ => .pure _
  | readdirplusPage dir cookie cookieverf dircount maxcount =>
    exact behind_local skipPostOpAttr_local <| (getArray_local 8).bind fun _ =>
      (decodeList_local decodeEntryPlus_local).bind fun _ => getUint32_local.bind fun _ => .pure _
  | fsstat root =>
    exact behind_local skipPostOpAttr_local <| getUint64_local.bind fun _ =>
      getUint64_local.bind fun _ => getUint64_local.bind fun _ => getUint64_local.bind fun _ =>
      getUint64_local.bind fun _ => getUint64_local.bind fun _ => getUint32_local.bind fun _ =>
      .pure _
  | fsinfo root =>
    exact behind_local skipPostOpAttr_local <| getUint32_local.bind fun _ =>
      getUint32_local.bind fun _ => getUint32_local.bind fun _ => getUint32_local.bind fun _ =>
      getUint32_local.bind fun _ => getUint32_local.bind fun _ => getUint32_local.bind fun _ =>
      getUint64_local.bind fun _ => getUint32_local.bind fun _ => getUint32_local.bind fun _ =>
      getUint32_local.bind fun _ => .pure _
  | pathconf fh =>
    exact behind_local skipPostOpAttr_local <| getUint32_local.bind fun _ =>
      getUint32_local.bind fun _ => getUint32_local.bind fun _ => getUint32_local.bind fun _ =>
      getUint32_local.bind fun _ => getUint32_local.bind fun _ => .pure _
  | commit fh offset count => exact behind_local skipWccData_local (getArray_local 8)

end Nfs3

/-! ### NFSv4 -/

theorem opStatus_local (op : String) : Local (opStatus op) :=
  getUint32_local.bind fun _ => getUint32_local.bind fun _ => throwIf_local

theorem decodeStateid4_local : Local decodeStateid4 :=
  getUint32_local.bind fun _ => (getArray_local 12).bind fun _ => .pure _

theorem skipChangeInfo4_local : Local skipChangeInfo4 :=
  getUint32_local.bind fun _ => getUint64_local.bind fun _ => getUint64_local.bind fun _ => .pure _

theorem skipUint32s_local (n : UInt32) : Local (skipUint32s n) :=
  (getUint32_local.times n.toNat).bind fun _ => .pure _

theorem decodeBitmap4_local : Local decodeBitmap4 :=
  getUint32_local.bind fun count => getUint32_local.times count.toNat

/-- A decoder of its own takes nothing of the bytes behind it. -/
theorem withDecoder_local {α : Type} (bytes : Bytes) (d : XdrDecoder α) :
    Local (withDecoder bytes d) := by
  intro bs a rest h
  obtain ⟨hinner, rfl⟩ := withDecoder_ok.mp h
  exact ⟨[], rfl, fun _ => withDecoder_ok.mpr ⟨hinner, rfl⟩⟩

theorem decodeFattr4_local : Local decodeFattr4 :=
  decodeBitmap4_local.bind fun _ => getOpaque_local.bind fun _ => withDecoder_local _ _

theorem skipNfsace4_local : Local skipNfsace4 :=
  getUint32_local.bind fun _ => getUint32_local.bind fun _ => getUint32_local.bind fun _ =>
  getString_local.bind fun _ => .pure _

theorem skipDelegation_local : Local skipDelegation :=
  getUint32_local.bind fun _ =>
    (decodeStateid4_local.bind fun _ => getUint32_local.bind fun _ => skipNfsace4_local).ite <|
    (decodeStateid4_local.bind fun _ => getUint32_local.bind fun _ => getUint32_local.bind fun _ =>
      getUint32_local.bind fun _ => getUint32_local.bind fun _ => skipNfsace4_local).ite (.pure _)

theorem decodeDirEntry4_local : Local decodeDirEntry4 :=
  getUint64_local.bind fun _ => getString_local.bind fun _ => decodeFattr4_local.bind fun _ =>
  .pure _

theorem skipImplId_local : Local skipImplId :=
  getOpaque_local.bind fun _ => getOpaque_local.bind fun _ => getUint64_local.bind fun _ =>
  getUint32_local.bind fun _ => .pure _

theorem checkCompoundStatus_local : Local checkCompoundStatus :=
  getUint32_local.bind fun _ => throwIf_local.bind fun _ => getString_local.bind fun _ =>
  getUint32_local.bind fun _ => .pure _

/-- The `decode_*_result` functions. -/
inductive ResultDecoder
  | putrootfh | putfh | getfh | savefh | restorefh | lookup | lookupp | getattr | access
  | open | openConfirm | close | renew | read | write | commit | create | remove | rename
  | readlink | setattr | readdir | setclientid | setclientidConfirm | exchangeId | createSession
  | sequence41 | reclaimComplete | destroySession
  deriving DecidableEq, Repr

namespace ResultDecoder

@[reducible] def Value : ResultDecoder → Type
  | getfh => Nfs4Fh
  | getattr => Fattr4
  | access => Access4Result
  | .open => Open4Result
  | openConfirm => Stateid4
  | read | readlink => Bytes
  | write => Nfs4WriteResult
  | commit => Octets 8
  | readdir => ReaddirPage4
  | setclientid => SetclientidResult
  | exchangeId => ExchangeIdResult
  | createSession => SessionId41
  | _ => Unit

def decode : (d : ResultDecoder) → XdrDecoder d.Value
  | putrootfh => decodePutrootfhResult
  | putfh => decodePutfhResult
  | getfh => decodeGetfhResult
  | savefh => decodeSavefhResult
  | restorefh => decodeRestorefhResult
  | lookup => decodeLookupResult
  | lookupp => decodeLookuppResult
  | getattr => decodeGetattrResult
  | access => decodeAccessResult
  | .open => decodeOpenResult
  | openConfirm => decodeOpenConfirmResult
  | close => decodeCloseResult
  | renew => decodeRenewResult
  | read => decodeReadResult
  | write => decodeWriteResult
  | commit => decodeCommitResult
  | create => decodeCreateResult
  | remove => decodeRemoveResult
  | rename => decodeRenameResult
  | readlink => decodeReadlinkResult
  | setattr => decodeSetattrResult
  | readdir => decodeReaddirResult
  | setclientid => decodeSetclientidResult
  | setclientidConfirm => decodeSetclientidConfirmResult
  | exchangeId => decodeExchangeIdResult
  | createSession => decodeCreateSessionResult
  | sequence41 => decodeSequence41Result
  | reclaimComplete => decodeReclaimCompleteResult
  | destroySession => decodeDestroySessionResult

theorem decode_local (d : ResultDecoder) : Local d.decode := by
  cases d with
  -- an opcode and a status
  | putrootfh => exact opStatus_local _
  | putfh => exact opStatus_local _
  | savefh => exact opStatus_local _
  | restorefh => exact opStatus_local _
  | lookup => exact opStatus_local _
  | lookupp => exact opStatus_local _
  | renew => exact opStatus_local _
  | setclientidConfirm => exact opStatus_local _
  | reclaimComplete => exact opStatus_local _
  | destroySession => exact opStatus_local _
  -- and a body
  | getfh => exact (opStatus_local _).bind fun _ => getOpaque_local.map _
  | getattr => exact (opStatus_local _).bind fun _ => decodeFattr4_local
  | access =>
    exact (opStatus_local _).bind fun _ => getUint32_local.bind fun _ =>
      getUint32_local.bind fun _ => .pure _
  | «open» =>
    exact (opStatus_local _).bind fun _ => decodeStateid4_local.bind fun _ =>
      skipChangeInfo4_local.bind fun _ => getUint32_local.bind fun _ =>
      getUint32_local.bind fun _ => (skipUint32s_local _).bind fun _ =>
      skipDelegation_local.bind fun _ => .pure _
  | openConfirm => exact (opStatus_local _).bind fun _ => decodeStateid4_local
  | close => exact (opStatus_local _).bind fun _ => decodeStateid4_local.bind fun _ => .pure _
  | read => exact (opStatus_local _).bind fun _ => getUint32_local.bind fun _ => getOpaque_local
  | write =>
    exact (opStatus_local _).bind fun _ => getUint32_local.bind fun _ =>
      getUint32_local.bind fun _ => (getArray_local 8).bind fun _ => .pure _
  | commit => exact (opStatus_local _).bind fun _ => getArray_local 8
  | create =>
    exact (opStatus_local _).bind fun _ => skipChangeInfo4_local.bind fun _ =>
      getUint32_local.bind fun _ => skipUint32s_local _
  | remove => exact (opStatus_local _).bind fun _ => skipChangeInfo4_local
  | rename =>
    exact (opStatus_local _).bind fun _ => skipChangeInfo4_local.bind fun _ =>
      skipChangeInfo4_local
  | readlink => exact (opStatus_local _).bind fun _ => getString_local
  | setattr =>
    exact (opStatus_local _).bind fun _ => getUint32_local.bind fun _ => skipUint32s_local _
  | readdir =>
    change Local decodeReaddirResult
    rw [decodeReaddirResult_eq]
    exact (opStatus_local _).bind fun _ => (getArray_local 8).bind fun _ =>
      (decodeList_local decodeDirEntry4_local).bind fun _ => getUint32_local.bind fun _ => .pure _
  | setclientid =>
    exact (opStatus_local _).bind fun _ => getUint64_local.bind fun _ =>
      (getArray_local 8).bind fun _ => .pure _
  | exchangeId =>
    exact (opStatus_local _).bind fun _ => getUint64_local.bind fun _ =>
      getUint32_local.bind fun _ => getUint32_local.bind fun _ => getUint32_local.bind fun _ =>
      getUint64_local.bind fun _ => getOpaque_local.bind fun _ => getOpaque_local.bind fun _ =>
      getUint32_local.bind fun _ => (skipImplId_local.times _).bind fun _ => .pure _
  | createSession =>
    exact (opStatus_local _).bind fun _ => (getArray_local 16).bind fun _ =>
      getUint32_local.bind fun _ => getUint32_local.bind fun _ =>
      (getUint32_local.times 7).bind fun _ => (getUint32_local.times 7).bind fun _ => .pure _
  | sequence41 =>
    exact (opStatus_local _).bind fun _ => (getFixedOpaque_local 16).bind fun _ =>
      getUint32_local.bind fun _ => getUint32_local.bind fun _ => getUint32_local.bind fun _ =>
      getUint32_local.bind fun _ => getUint32_local.bind fun _ => .pure _

end ResultDecoder

/-! ### All replies -/

/-- A decoder of a reply or of a part of one. -/
inductive ReplyDecoder
  | rpcHeader
  | mnt
  | exports
  | nfs3 (c : Nfs3.Call)
  | compoundStatus
  | nfs4 (d : ResultDecoder)

namespace ReplyDecoder

@[reducible] def Value : ReplyDecoder → Type
  | rpcHeader | compoundStatus => Unit
  | mnt => Fh3
  | exports => List ExportEntry
  | nfs3 c => c.Result
  | nfs4 d => d.Value

def decode : (d : ReplyDecoder) → XdrDecoder d.Value
  | rpcHeader => parseReplyHeader
  | mnt => Nfs3.decodeMntReply
  | exports => Nfs3.decodeExports
  | nfs3 c => c.decodeReply
  | compoundStatus => checkCompoundStatus
  | nfs4 d => d.decode

theorem decode_local : (d : ReplyDecoder) → Local d.decode
  | rpcHeader => parseReplyHeader_local
  | mnt => Nfs3.decodeMntReply_local
  | exports => Nfs3.decodeExports_local
  | nfs3 c => c.decodeReply_local
  | compoundStatus => checkCompoundStatus_local
  | nfs4 d => d.decode_local

end ReplyDecoder

/-- **A truncated reply is never read.** A decoder that takes `n` bytes of `s` returns the same on
everything that begins with these bytes, taking the same, and throws on every shorter piece of
`s`. -/
theorem reply_decoders_local (d : ReplyDecoder) {s rest : Bytes} {a : d.Value}
    (h : d.decode s = .ok (a, rest)) :
    let n := s.length - rest.length
    n ≤ s.length ∧ rest = s.drop n ∧
    (∀ t : Bytes, t.take n = s.take n → d.decode t = .ok (a, t.drop n)) ∧
    ∀ m < n, ∃ e, d.decode (s.take m) = .error e :=
  ⟨Nat.sub_le _ _, d.decode_local.rest_eq h, fun _ ht => d.decode_local.agree h ht,
    fun _ hm => d.decode_local.truncated h hm⟩

/-- The result of a successful GETFH with a handle of one byte, and two bytes behind it. -/
theorem getfh_local :
    (∀ t : Bytes, t.take 16 = [0, 0, 0, 10, 0, 0, 0, 0, 0, 0, 0, 1, 7, 0, 0, 0] →
      decodeGetfhResult t = .ok (⟨[7]⟩, t.drop 16)) ∧
    ∀ m < 16, ∃ e, decodeGetfhResult
      (([0, 0, 0, 10, 0, 0, 0, 0, 0, 0, 0, 1, 7, 0, 0, 0, 5, 5] : Bytes).take m) = .error e := by
  have hread : decodeGetfhResult [0, 0, 0, 10, 0, 0, 0, 0, 0, 0, 0, 1, 7, 0, 0, 0, 5, 5]
      = .ok (⟨[7]⟩, [5, 5]) := rfl
  obtain ⟨-, -, hagree, hcut⟩ := reply_decoders_local (.nfs4 .getfh) hread
  exact ⟨hagree, hcut⟩

end NfsClient
