import NfsClient.Framing.Messages
import NfsClient.Nfs3.Facade

/-!
# CREATE and its mode

`createhow3` is a union: behind the mode come settable attributes for UNCHECKED and GUARDED, and a
verifier of 8 bytes for EXCLUSIVE. `NFSClient::create` takes the mode as an argument and hands it to
`encode_create_args`, which writes it as the discriminant and attributes behind it, whatever the mode
is. Its arguments match the mode exactly if this is not EXCLUSIVE (`create_matches_mode_iff`). In that
mode attributes stand where the verifier is to be, and they are longer than one: the server takes their
first two words for the verifier, which is the same for all files that are created with the same
attributes (`exclusive_verifier`).
-/

namespace NfsClient

open Xdr Interaction

namespace Nfs3

variable {dir : Fh3} {name : Bytes} {mode : CreateMode3} {attrs : Sattr3}

/-- The arguments are those of a CREATE of `name` in the arm of `mode`, to the last byte. -/
def MatchesMode (dir : Fh3) (name : Bytes) (mode : CreateMode3) (args : Bytes) : Prop :=
  ∃ arm : CreateArm mode, Proc.CREATE.argFormat.read args = .ok ((dir.data, name, ⟨mode, arm⟩), [])

/-- Six flags, if no attribute is set. -/
theorem SetAttrs.le_wireSize (a : SetAttrs) : 24 ≤ a.wireSize := by
  unfold SetAttrs.wireSize setTimeSize
  omega

theorem length_encodeCreateArgs : (encodeCreateArgs dir name mode attrs).length =
    opaqueSize dir.data.length + (opaqueSize name.length + (4 + attrs.wire.wireSize)) := by
  rw [Message.encodeCreateArgs_eq]
  exact (Format.Measured.bytes.pair (Format.Measured.bytes.pair
    (Format.Measured.word.pair measured_sattr3))).length_write _

/-- Arguments that are read to the end have the length that they are read with. -/
theorem MatchesMode.length {args : Bytes} (h : MatchesMode dir name .EXCLUSIVE args) :
    args.length = opaqueSize dir.data.length + (opaqueSize name.length + (4 + 8)) := by
  obtain ⟨verf, hread⟩ := h
  obtain ⟨-, heq⟩ := Proc.CREATE.argFormat.read_ok.mp hread
  rw [heq, List.append_nil]
  exact Proc.CREATE.measured.length_write _

theorem not_matchesMode_exclusive :
    ¬ MatchesMode dir name .EXCLUSIVE (encodeCreateArgs dir name .EXCLUSIVE attrs) := by
  intro h
  have hlen := h.length
  rw [length_encodeCreateArgs] at hlen
  have hle := attrs.wire.le_wireSize
  omega

theorem matchesMode_iff : MatchesMode dir name mode (encodeCreateArgs dir name mode attrs) ↔
    mode ≠ .EXCLUSIVE ∧ dir.data.length < 2 ^ 32 ∧ name.length < 2 ^ 32 := by
  constructor
  · intro h
    refine ⟨?_, ?_⟩
    · rintro rfl
      exact not_matchesMode_exclusive h
    · obtain ⟨arm, hread⟩ := h
      obtain ⟨⟨hdir, hname, -⟩, -⟩ := Proc.CREATE.argFormat.read_ok.mp hread
      exact ⟨hdir, hname⟩
  · rintro ⟨hmode, hdir, hname⟩
    have hread := Call.read_encodeArgs (c := .create dir name mode hmode attrs) ⟨hdir, hname⟩
    -- in both of the other modes the arm is a `sattr3`
    cases mode with
    | UNCHECKED => exact ⟨attrs.wire, hread⟩
    | GUARDED => exact ⟨attrs.wire, hread⟩
    | EXCLUSIVE => exact absurd rfl hmode

/-- What a server takes for the verifier: the first two words of the attributes. -/
def leadingVerf (attrs : Sattr3) : Octets 8 :=
  ⟨(Wire.sattr3.write attrs.wire).take 8, by
    have hle := attrs.wire.le_wireSize
    rw [List.length_take, measured_sattr3.length_write]
    omega⟩

theorem exclusive_verifier (hdir : dir.data.length < 2 ^ 32) (hname : name.length < 2 ^ 32) :
    Proc.CREATE.argFormat.read (encodeCreateArgs dir name .EXCLUSIVE attrs) =
      .ok ((dir.data, name, ⟨.EXCLUSIVE, leadingVerf attrs⟩),
        (Wire.sattr3.write attrs.wire).drop 8) := by
  refine Proc.CREATE.argFormat.read_ok.mpr ⟨⟨hdir, hname, trivial⟩, ?_⟩
  rw [Message.encodeCreateArgs_eq]
  -- the attributes cut in two behind the second word
  have hcut : Wire.sattr3.write attrs.wire =
      (Format.octets 8).write (leadingVerf attrs) ++ (Wire.sattr3.write attrs.wire).drop 8 := by
    change _ = (leadingVerf attrs).1 ++ List.replicate (padLen (leadingVerf attrs).1.length) 0 ++ _
    rw [(leadingVerf attrs).2, show padLen 8 = 0 from rfl, List.replicate_zero, List.append_nil]
    exact (List.take_append_drop 8 _).symm
  change Format.bytes.write dir.data ++ (Format.bytes.write name ++
      (word CreateMode3.EXCLUSIVE.code ++ Wire.sattr3.write attrs.wire)) =
    Format.bytes.write dir.data ++ (Format.bytes.write name ++ (word CreateMode3.EXCLUSIVE.code ++
      (Format.octets 8).write (leadingVerf attrs))) ++ (Wire.sattr3.write attrs.wire).drop 8
  simp only [List.append_assoc]
  rw [← hcut]

end Nfs3

/-- **CREATE arguments match their mode** exactly if this is not EXCLUSIVE and the strings have a
count. -/
theorem NFSClient.create_matches_mode_iff (c : NFSClient) (dir : Fh3) (name : Bytes)
    (mode : CreateMode3) (attrs : Sattr3) :
    (create dir name mode attrs c).Sends (fun _ q => Nfs3.MatchesMode dir name mode q.args) [] ↔
      mode ≠ .EXCLUSIVE ∧ dir.data.length < 2 ^ 32 ∧ name.length < 2 ^ 32 := by
  have hiff : Nfs3.MatchesMode dir name mode (Nfs3.encodeCreateArgs dir name mode attrs) ↔ _ :=
    Nfs3.matchesMode_iff
  rw [← hiff, create, Nfs3.create, onConn_procedure_eq]
  exact and_iff_left fun _ => trivial

/-- An exclusive CREATE of a file with no attributes set. -/
theorem NFSClient.exclusive_create_mismatched :
    ¬ (create ⟨[1]⟩ (ascii "a") .EXCLUSIVE {} ⟨TcpRpcClient.connect 2049⟩).Sends
      (fun _ q => Nfs3.MatchesMode ⟨[1]⟩ (ascii "a") .EXCLUSIVE q.args) [] :=
  fun h => Nfs3.not_matchesMode_exclusive h.1

end NfsClient
