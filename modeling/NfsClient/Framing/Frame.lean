import NfsClient.Lib.XdrSize
import NfsClient.Rpc.Client

/-!
# What a server reads of a CALL

A CALL on a TCP connection is a fragment that holds the whole message (RFC 5531): the record mark has
the flag of the last fragment in its top bit and the length in the other 31, and the message has a
header with a credential and a verifier, and then the arguments. Both are stated here from the
server's side, `readFragment` and `Wire.callHeader`.

`buildCallMessage` writes the header whatever its sizes are (`RpcRequest.message_eq`). The record mark
is right exactly for messages of less than `2 ^ 31` bytes (`reads_addRecordMark_iff`): from there on
the length runs into the flag.
-/

namespace NfsClient

open Xdr Reader

/-! ### The record mark -/

/-- A fragment: the flag of the last fragment, and as many bytes as the other 31 bits say. -/
def readFragment : Reader UInt8 Malformed (Bool × Bytes) := do
  let mark ← Format.word.read
  let fragment ← Format.readOctets (mark.toNat % 2 ^ 31)
  return (decide (2 ^ 31 ≤ mark.toNat), fragment.1)

theorem readFragment_ok {bs rest fragment : Bytes} {last : Bool} :
    readFragment bs = .ok ((last, fragment), rest) ↔ ∃ mark : UInt32,
      bs = word mark ++ (fragment ++ rest) ∧ fragment.length = mark.toNat % 2 ^ 31 ∧
        last = decide (2 ^ 31 ≤ mark.toNat) := by
  unfold readFragment
  constructor
  · intro h
    obtain ⟨mark, mid, hmark, h⟩ := bind_ok.mp h
    obtain ⟨x, mid', hx, h⟩ := bind_ok.mp h
    obtain ⟨heq, rfl⟩ := pure_ok.mp h
    obtain ⟨rfl, rfl⟩ := Prod.mk.inj heq
    obtain ⟨-, rfl⟩ := Format.word.read_ok.mp hmark
    exact ⟨mark, by rw [Format.readOctets_ok.mp hx]; rfl, x.2, rfl⟩
  · rintro ⟨mark, rfl, hlen, rfl⟩
    refine bind_ok.mpr ⟨mark, fragment ++ rest, Format.word.read_ok.mpr ⟨trivial, rfl⟩, ?_⟩
    refine bind_ok.mpr ⟨⟨fragment, hlen⟩, rest, Format.readOctets_ok.mpr rfl, ?_⟩
    exact pure_ok.mpr ⟨rfl, rfl⟩

/-- A server that reads on at the record mark finds the message in one last fragment exactly if it
has less than `2 ^ 31` bytes. -/
theorem reads_addRecordMark_iff {payload : Bytes} :
    Reads readFragment (addRecordMark payload) (true, payload) ↔ payload.length < 2 ^ 31 := by
  constructor
  · intro h
    obtain ⟨mark, -, hlen, -⟩ := readFragment_ok.mp h.run
    rw [hlen]
    exact Nat.mod_lt _ (by decide)
  · intro h rest
    -- below the flag the length and the flag do not overlap, and the mark is their sum
    have hmark : (UInt32.ofNat (2 ^ 31 + payload.length)).toNat = 2 ^ 31 + payload.length :=
      toNat_ofNat_of_lt (by omega)
    refine readFragment_ok.mpr ⟨UInt32.ofNat (2 ^ 31 + payload.length), ?_, ?_, ?_⟩
    · rw [addRecordMark_eq h, List.append_assoc]
    · rw [hmark]
      omega
    · rw [hmark]
      exact (decide_eq_true (Nat.le_add_right _ _)).symm

/-! ### The header -/

/-- A CALL up to its arguments. -/
structure CallHeader where
  xid : UInt32
  prog : UInt32
  vers : UInt32
  proc : UInt32
  auth : Option AuthSys

/-- The flavors of credentials in use. -/
inductive AuthFlavor
  | NONE | SYS

namespace AuthFlavor

def code : AuthFlavor → UInt32
  | NONE => AUTH_NONE | SYS => AUTH_SYS_FLAV

/-- What the body of a credential holds. -/
@[reducible] def Body : AuthFlavor → Type
  | NONE => Unit
  | SYS => AuthSys

/-- A credential, as the client has it. -/
def toAuth : ((k : AuthFlavor) × k.Body) ≃ Option AuthSys where
  toFun
    | ⟨.NONE, _⟩ => none
    | ⟨.SYS, auth⟩ => some auth
  invFun
    | none => ⟨.NONE, ()⟩
    | some auth => ⟨.SYS, auth⟩
  left_inv x := by obtain ⟨⟨⟩, x⟩ := x <;> rfl
  right_inv x := by cases x <;> rfl

end AuthFlavor

namespace Wire

open Xdr.Format

/-- `authsys_parms`. -/
def authSys : Format AuthSys :=
  (pair word (pair bytes (pair word (pair word (array word))))).map
    ⟨fun ⟨stamp, machinename, uid, gid, gids⟩ => ⟨stamp, machinename, uid, gid, gids⟩,
      fun a => (a.stamp, a.machinename, a.uid, a.gid, a.gids), fun _ => rfl, fun _ => rfl⟩

/-- `opaque_auth`, as a credential: the body is opaque to the RPC layer. -/
def credential : Format (Option AuthSys) :=
  (union AuthFlavor.code (findArm AuthFlavor.code [.NONE, .SYS])
    (findArm_eq (by intro k; cases k <;> rfl)) fun
    | .NONE => inside void
    | .SYS => inside authSys).map AuthFlavor.toAuth

/-- The verifier of a CALL is AUTH_NONE. -/
def callHeader : Format CallHeader :=
  (pair word (pair (literal MsgType.CALL) (pair (literal RPC_VERSION) (pair word (pair word (pair word
    (pair credential (pair (literal AUTH_NONE) (inside void))))))))).map
    ⟨fun ⟨xid, _, _, prog, vers, proc, auth, _⟩ => ⟨xid, prog, vers, proc, auth⟩,
      fun h => (h.xid, (), (), h.prog, h.vers, h.proc, h.auth, (), ()), fun _ => rfl, fun _ => rfl⟩

end Wire

/-- The header of a request. -/
def RpcRequest.header (q : RpcRequest) : CallHeader := ⟨q.xid, q.prog, q.vers, q.proc, q.auth⟩

theorem encodeAuthSys_eq (auth : AuthSys) : encodeAuthSys auth = Wire.authSys.write auth := by
  rw [encodeAuthSys, putString_eq, funext putUint32_eq]
  simp only [List.append_assoc]
  rfl

theorem varOpaque_nil : varOpaque [] = word 0 := List.append_nil (word 0)

theorem write_callHeader (h : CallHeader) :
    Wire.callHeader.write h = word h.xid ++ (word MsgType.CALL ++ (word RPC_VERSION ++
      (word h.prog ++ (word h.vers ++ (word h.proc ++ (Wire.credential.write h.auth ++
        (word AUTH_NONE ++ varOpaque []))))))) := rfl

theorem write_credential_none : Wire.credential.write none = word AUTH_NONE ++ varOpaque [] := rfl

theorem write_credential_some (auth : AuthSys) :
    Wire.credential.write (some auth)
      = word AUTH_SYS_FLAV ++ varOpaque (Wire.authSys.write auth) := rfl

/-- `buildCallMessage` writes the header and then the arguments. -/
theorem RpcRequest.message_eq (q : RpcRequest) :
    q.message = Wire.callHeader.write q.header ++ q.args := by
  unfold RpcRequest.message buildCallMessage
  rw [write_callHeader, varOpaque_nil]
  cases hauth : q.auth with
  | none => simp only [RpcRequest.header, hauth, write_credential_none, varOpaque_nil, putUint32_eq,
      List.append_assoc]
  | some auth => simp only [RpcRequest.header, hauth, write_credential_some, encodeAuthSys_eq,
      putUint32_eq, putOpaque_eq, List.append_assoc]

/-! ### Sizes -/

def AuthSys.size (auth : AuthSys) : ℕ :=
  4 + (opaqueSize auth.machinename.length + (4 + (4 + (4 + 4 * auth.gids.length))))

/-- The size of a credential. -/
def credentialSize : Option AuthSys → ℕ
  | none => 8
  | some auth => 4 + opaqueSize auth.size

/-- The size of a CALL without its arguments. -/
def headerSize (auth : Option AuthSys) : ℕ := 24 + credentialSize auth + 8

theorem measured_authSys : Format.Measured Wire.authSys AuthSys.size :=
  (Format.Measured.word.pair (Format.Measured.bytes.pair (Format.Measured.word.pair
    (Format.Measured.word.pair Format.Measured.words)))).map _

theorem measured_credential : Format.Measured Wire.credential credentialSize := by
  refine ((Format.Measured.union (n := fun
    | .NONE => fun _ => opaqueSize 0
    | .SYS => fun auth => opaqueSize auth.size) fun k => ?_).map AuthFlavor.toAuth).congr fun auth => ?_
  · cases k with
    | NONE => exact Format.Measured.void.inside
    | SYS => exact measured_authSys.inside
  · cases auth <;> rfl

theorem measured_callHeader : Format.Measured Wire.callHeader fun h => headerSize h.auth := by
  refine ((Format.Measured.word.pair ((Format.Measured.literal _).pair
    ((Format.Measured.literal _).pair (Format.Measured.word.pair (Format.Measured.word.pair
      (Format.Measured.word.pair (measured_credential.pair
        ((Format.Measured.literal _).pair Format.Measured.void.inside)))))))).map _).congr fun h => ?_
  change 4 + (4 + (4 + (4 + (4 + (4 + (credentialSize h.auth + (4 + opaqueSize 0))))))) = _
  have hvoid : opaqueSize 0 = 4 := rfl
  unfold headerSize
  omega

theorem RpcRequest.length_message (q : RpcRequest) :
    q.message.length = headerSize q.auth + q.args.length := by
  rw [q.message_eq, List.length_append, measured_callHeader.length_write]
  rfl

end NfsClient
