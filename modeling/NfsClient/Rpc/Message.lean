import NfsClient.Xdr.Codec

/-!
# ONC RPC messages and record marking

The pure helpers of `TcpRpcClient`: the CALL message with its credential, the record mark in
front of it, and the header of a REPLY. `addRecordMark_eq` reads the mark as a number;
`parseReply_accepted` is the round trip of an accepted REPLY with any verifier.
-/

namespace NfsClient

open Xdr Reader

/-! ### Constants (rpc_types.hpp) -/

def RPC_VERSION : UInt32 := 2
def AUTH_NONE : UInt32 := 0
def AUTH_SYS_FLAV : UInt32 := 1

namespace MsgType
def CALL : UInt32 := 0
def REPLY : UInt32 := 1
end MsgType

namespace ReplyStat
def MSG_ACCEPTED : UInt32 := 0
def MSG_DENIED : UInt32 := 1
end ReplyStat

namespace AcceptStat
def SUCCESS : UInt32 := 0
end AcceptStat

/-- AUTH_SYS credential body. -/
structure AuthSys where
  stamp : UInt32 := 0
  machinename : Bytes := ascii "localhost"
  uid : UInt32 := 0
  gid : UInt32 := 0
  gids : List UInt32 := []
  deriving DecidableEq, Repr

/-! ### Messages -/

/-- The bytes of `cred_body`. -/
def encodeAuthSys (auth : AuthSys) : Bytes :=
  putUint32 auth.stamp ++ putString auth.machinename ++ putUint32 auth.uid ++ putUint32 auth.gid ++
    putUint32 (sizeToUint32 auth.gids.length) ++ auth.gids.flatMap putUint32

def buildCallMessage (xid prog vers proc : UInt32) (args : Bytes) (auth : Option AuthSys) : Bytes :=
  putUint32 xid ++ putUint32 MsgType.CALL ++ putUint32 RPC_VERSION ++
    putUint32 prog ++ putUint32 vers ++ putUint32 proc ++
    (match auth with
      | some auth => putUint32 AUTH_SYS_FLAV ++ putOpaque (encodeAuthSys auth)
      | none => putUint32 AUTH_NONE ++ putUint32 0) ++
    -- the verifier is always AUTH_NONE
    (putUint32 AUTH_NONE ++ putUint32 0) ++ args

/-- The mark has the last-fragment bit set and the length in the other 31 bits. -/
def addRecordMark (payload : Bytes) : Bytes :=
  let len := sizeToUint32 payload.length
  let mark := ((1 : UInt32) <<< 31) ||| len
  [((mark >>> 24) &&& 0xFF).toUInt8, ((mark >>> 16) &&& 0xFF).toUInt8,
    ((mark >>> 8) &&& 0xFF).toUInt8, (mark &&& 0xFF).toUInt8] ++ payload

/-- The header of a REPLY, up to the procedure's result. The xid is read and dropped. -/
def parseReplyHeader : XdrDecoder Unit := do
  let _xid ← getUint32
  let msgType ← getUint32
  throwIf (msgType ≠ MsgType.REPLY) (.runtimeError "RPC: expected REPLY message type")
  let replyStat ← getUint32
  throwIf (replyStat ≠ ReplyStat.MSG_ACCEPTED)
    (.runtimeError ("RPC: message denied (reply_stat=" ++ toString replyStat ++ ")"))
  -- the verifier is of any flavor
  let _verfFlavor ← getUint32
  let _verfBody ← getOpaque
  let acceptStat ← getUint32
  throwIf (acceptStat ≠ AcceptStat.SUCCESS)
    (.runtimeError ("RPC: not accepted (accept_stat=" ++ toString acceptStat ++ ")"))

/-- The result bytes of an accepted, successful REPLY. -/
def parseReply (record : Bytes) : Except Exn Bytes :=
  match (do parseReplyHeader; getRemaining : XdrDecoder Bytes) record with
  | .ok (body, _) => .ok body
  | .error e => .error e

/-! ### What the messages are -/

/-- The record mark as a number: the low 31 bits are the length when it fits, and the top bit
is set whatever the length is. -/
theorem addRecordMark_eq {payload : Bytes} (h : payload.length < 2 ^ 31) :
    addRecordMark payload = word (UInt32.ofNat (2 ^ 31 + payload.length)) ++ payload := by
  have hmark : ((1 : UInt32) <<< 31) ||| sizeToUint32 payload.length
      = UInt32.ofNat (2 ^ 31 + payload.length) := by
    apply UInt32.toNat_inj.mp
    have hlen : (sizeToUint32 payload.length).toNat = payload.length :=
      toNat_ofNat_of_lt (by omega)
    have hbit : ((1 : UInt32) <<< 31).toNat = 2 ^ 31 * 1 := by decide
    rw [UInt32.toNat_or, hlen, hbit, ← Nat.two_pow_add_eq_or_of_lt h, toNat_ofNat_of_lt (by omega),
      mul_one]
  have h' := putUint32_eq (((1 : UInt32) <<< 31) ||| sizeToUint32 payload.length)
  rw [hmark] at h'
  rw [← h', ← hmark]
  rfl

/-- `buildCallMessage` begins with the xid. -/
theorem buildCallMessage_take_four (xid prog vers proc : UInt32) (args : Bytes)
    (auth : Option AuthSys) : (buildCallMessage xid prog vers proc args auth).take 4 = word xid := by
  unfold buildCallMessage
  simp only [putUint32_eq, List.append_assoc]
  exact List.take_left' (length_word xid)

/-- The header of an accepted, successful REPLY with the given xid and verifier. -/
def acceptedHeader (xid flavor : UInt32) (verf : Bytes) : Bytes :=
  word xid ++ (word MsgType.REPLY ++ (word ReplyStat.MSG_ACCEPTED ++
    (word flavor ++ (varOpaque verf ++ word AcceptStat.SUCCESS))))

theorem parseReplyHeader_reads (xid flavor : UInt32) {verf : Bytes} (h : verf.length < 2 ^ 32) :
    Reads parseReplyHeader (acceptedHeader xid flavor verf) () :=
  (getUint32_reads xid).bind <| (getUint32_reads MsgType.REPLY).bind <|
    throwIf_bind_reads (not_not.mpr rfl) <| (getUint32_reads ReplyStat.MSG_ACCEPTED).bind <|
    throwIf_bind_reads (not_not.mpr rfl) <| (getUint32_reads flavor).bind <|
    (getOpaque_reads h).bind <| (getUint32_reads AcceptStat.SUCCESS).bind_nil <|
    throwIf_reads (not_not.mpr rfl)

theorem parseReplyHeader_local : Local parseReplyHeader :=
  getUint32_local.bind fun _ => getUint32_local.bind fun _ => throwIf_local.bind fun _ =>
  getUint32_local.bind fun _ => throwIf_local.bind fun _ => getUint32_local.bind fun _ =>
  getOpaque_local.bind fun _ => getUint32_local.bind fun _ => throwIf_local

/-- `parseReply` returns the result of an accepted, successful REPLY. -/
theorem parseReply_accepted (xid flavor : UInt32) {verf : Bytes} (h : verf.length < 2 ^ 32)
    (body : Bytes) : parseReply (acceptedHeader xid flavor verf ++ body) = .ok body := by
  unfold parseReply
  rw [bind_of_ok (parseReplyHeader_reads xid flavor h body)]
  rfl

end NfsClient
