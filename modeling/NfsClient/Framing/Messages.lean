import NfsClient.Framing.Frame
import NfsClient.Framing.Sizes
import NfsClient.Listing.Loops
import NfsClient.Nfs3.Requests
import NfsClient.Nfs4.Session

/-!
# Messages at the size limits

Every message that the client sends (`Message`), with what a server is to read in it, and the size of
the CALL as a formula in the lengths of what the caller passed. Nothing on the way from the public
functions to the socket looks at a size: the count of an opaque and the count of a WRITE keep the low
32 bits of a length, the record mark has room for 31. The mark is the first to fail, so that a message
is read back exactly if it has less than `2 ^ 31` bytes (`frames_read_back_iff`).
-/

namespace NfsClient

open Xdr Reader Interaction

/-! ### Strings in an attribute list -/

/-- The strings of a `Sattr4`. The attribute list that they are in is itself an opaque. -/
def Sattr4.strings (attrs : Sattr4) : List Bytes :=
  attrs.owner.toList ++ attrs.owner_group.toList

/-- The strings in the attributes that a method takes. -/
def FileMethod.strings : FileMethod → List Bytes
  | .mkdir _ _ attrs | .symlink _ _ _ attrs | .setattr _ attrs => attrs.strings
  | _ => []

theorem length_ifPresent_putString (s : Option Bytes) {t : Bytes} (ht : t ∈ s.toList) :
    t.length ≤ (ifPresent putString s).length := by
  obtain rfl := Option.mem_toList.mp ht
  have hle := le_opaqueSize t.length
  change t.length ≤ (putString t).length
  rw [putString_eq, length_varOpaque]
  exact le_trans (by omega) hle

theorem Sattr4.length_le_attrlist {attrs : Sattr4} {s : Bytes} (hs : s ∈ attrs.strings) :
    s.length ≤ attrs.attrlist.length := by
  unfold Sattr4.attrlist
  simp only [List.length_append]
  rcases List.mem_append.mp hs with hs | hs
  · have hle := length_ifPresent_putString attrs.owner hs
    omega
  · have hle := length_ifPresent_putString attrs.owner_group hs
    omega

/-- A string of a method takes part in the size of an operation. -/
theorem FileMethod.exists_op_of_string {m : FileMethod} {s : Bytes} (hs : s ∈ m.strings) :
    ∃ op ∈ m.argOps, s.length ≤ op.size := by
  have hfattr : ∀ attrs : Sattr4, s ∈ attrs.strings → s.length ≤ fattrSize attrs.wire := by
    intro attrs hs
    refine le_trans (Sattr4.length_le_attrlist hs) ?_
    have hle := le_opaqueSize attrs.attrlist.length
    change _ ≤ 4 + 4 * _ + opaqueSize attrs.attrlist.length
    omega
  cases m with
  | mkdir dir name attrs =>
    refine ⟨⟨.CREATE, (⟨.DIR, ()⟩, name, attrs.wire)⟩, by simp [FileMethod.argOps], ?_⟩
    refine le_trans (hfattr attrs hs) ?_
    change _ ≤ 4 + (_ + (_ + fattrSize attrs.wire))
    omega
  | symlink dir name target attrs =>
    refine ⟨⟨.CREATE, (⟨.LNK, target⟩, name, attrs.wire)⟩, by simp [FileMethod.argOps], ?_⟩
    refine le_trans (hfattr attrs hs) ?_
    change _ ≤ 4 + (_ + (_ + fattrSize attrs.wire))
    omega
  | setattr fh attrs =>
    refine ⟨⟨.SETATTR, (Stateid4.anonymous, attrs.wire)⟩, by simp [FileMethod.argOps], ?_⟩
    refine le_trans (hfattr attrs hs) ?_
    change _ ≤ 4 + (16 + fattrSize attrs.wire)
    omega
  -- no other method takes attributes
  | _ => exact absurd hs List.not_mem_nil

theorem Nfs4Client.tag_fileCall (m : FileMethod) : (fileCall m).tag = [] := by cases m <;> rfl

theorem Nfs41Client.tag_fileCall (m : FileMethod) : (fileCall m).tag = [] := by cases m <;> rfl

/-! ### Messages -/

/-- What the client sends, by what it sends it for. A COMPOUND is the one of any method or handshake:
outside of a session (`compound`), or in one (`sequenced`). The COMPOUNDs of the methods that take
data have a constructor of their own for each facade, and `create` one for its three modes. -/
inductive Message : Type 1
  | getport (prog vers : UInt32)
  | mount (port : UInt16) (proc : UInt32) (export_path : Bytes)
  | exportList (port : UInt16)
  | nfs3 (rpc : TcpRpcClient) (c : Nfs3.Call)
  | create (rpc : TcpRpcClient) (dir : Fh3) (name : Bytes) (mode : CreateMode3) (attrs : Sattr3)
  | file40 (rpc : TcpRpcClient) (m : FileMethod)
  | file41 (c : Nfs41Client) (m : FileMethod)
  | compound {α : Type} (rpc : TcpRpcClient) (minorversion : UInt32) (q : CompoundCall α)
      (ops : List ArgOp) (hq : q.Announces ops)
  | sequenced {α : Type} (c : Nfs41Client) (q : CompoundCall α) (ops : List ArgOp)
      (hq : q.Announces ops)

namespace Message

def request : Message → RpcRequest
  | getport prog vers => getportRequest prog vers
  | mount port proc export_path => (TcpRpcClient.connect port).request Nfs3.MOUNT_PROG
      Nfs3.MOUNT_VERS proc (putString export_path)
  | exportList port => (TcpRpcClient.connect port).request Nfs3.MOUNT_PROG Nfs3.MOUNT_VERS
      Nfs3.MOUNTPROC3_EXPORT []
  | nfs3 rpc c => c.request rpc
  | create rpc dir name mode attrs => rpc.request Nfs3.NFS_PROG Nfs3.NFS_VERS Nfs3.NFSPROC3_CREATE
      (Nfs3.encodeCreateArgs dir name mode attrs)
  | file40 rpc m => (Nfs4Client.fileCall m).request rpc 0
  | file41 c m => c.request (Nfs41Client.fileCall m)
  | compound rpc minorversion q _ _ => q.request rpc minorversion
  | sequenced c q _ _ => c.request q

/-- What a server reads behind the header. -/
@[reducible] def Args : Message → Type
  | getport .. => UInt32 × UInt32 × UInt32 × UInt32
  | mount .. => Bytes
  | exportList .. => Unit
  | nfs3 _ c => c.proc.Args
  | create .. => Bytes × Bytes × UInt32 × Nfs3.SetAttrs
  | file40 .. | file41 .. | compound .. | sequenced .. => Compound

/-- `create` writes attributes in every mode, also in the one that has none in the protocol. -/
def format : (m : Message) → Format m.Args
  | getport .. => .pair .word (.pair .word (.pair .word .word))
  | mount .. => .bytes
  | exportList .. => .void
  | nfs3 _ c => c.proc.argFormat
  | create .. => .pair .bytes (.pair .bytes (.pair .word Nfs3.Wire.sattr3))
  | file40 .. | file41 .. | compound .. | sequenced .. => Compound.format

/-- What the caller passed. -/
def args : (m : Message) → m.Args
  | getport prog vers => (prog, vers, IPPROTO_TCP_XDR, 0)
  | mount _ _ export_path => export_path
  | exportList _ => ()
  | nfs3 _ c => c.args
  | create _ dir name mode attrs => (dir.data, name, mode.code, attrs.wire)
  | file40 _ m => ⟨(Nfs4Client.fileCall m).tag, 0, m.argOps⟩
  | file41 c m => ⟨(Nfs41Client.fileCall m).tag, 1,
      Nfs41Client.sequenceOp c.sessionid_ c.slot_seqid_ :: m.argOps⟩
  | compound _ minorversion q ops _ => ⟨q.tag, minorversion, ops⟩
  | sequenced c q ops _ => ⟨q.tag, 1, Nfs41Client.sequenceOp c.sessionid_ c.slot_seqid_ :: ops⟩

/-- The size of any arguments in this format. -/
def argSize : (m : Message) → m.Args → ℕ
  | getport .. => fun _ => 16
  | mount .. => fun export_path => opaqueSize export_path.length
  | exportList .. => fun _ => 0
  | nfs3 _ c => c.proc.argSize
  | create .. => fun a =>
    opaqueSize a.1.length + (opaqueSize a.2.1.length + (4 + a.2.2.2.wireSize))
  | file40 .. | file41 .. | compound .. | sequenced .. => Compound.size

/-- The size of these arguments, in the lengths of what the caller passed. -/
def bodySize : Message → ℕ
  | getport .. => 16
  | mount _ _ export_path => opaqueSize export_path.length
  | exportList _ => 0
  | nfs3 _ c => c.proc.argSize c.args
  | create _ dir name _ attrs =>
    opaqueSize dir.data.length + (opaqueSize name.length + (4 + attrs.wire.wireSize))
  | file40 _ m => compoundSize [] m.opsSize
  | file41 _ m => compoundSize [] (36 + m.opsSize)
  | compound _ _ q ops _ => compoundSize q.tag (ops.map ArgOp.size).sum
  | sequenced _ q ops _ => compoundSize q.tag (36 + (ops.map ArgOp.size).sum)

/-- The size of the CALL. -/
def size (m : Message) : ℕ := headerSize m.request.auth + m.bodySize

/-- The count that a WRITE announces apart from its data is theirs. -/
def CountAgrees : Message → Prop
  | nfs3 _ (.write fh offset stable data) =>
    let (_, _, count, _, data) := (Nfs3.Call.write fh offset stable data).args
    count.toNat = data.length
  | _ => True

/-- The strings that are inside an opaque of the message. -/
def strings : Message → List Bytes
  | file40 _ m | file41 _ m => m.strings
  | _ => []

/-- The peer reads the message back. -/
structure ReadBack (m : Message) : Prop where
  /-- The record mark is the flag of the last fragment and the number of bytes that follow. -/
  mark : Reads readFragment m.request.framed (true, m.request.message)
  /-- These bytes are the header and the arguments, to the last one. -/
  call : (Wire.callHeader.pair m.format).read m.request.message = .ok ((m.request.header, m.args), [])
  count : m.CountAgrees
  strings : ∀ s ∈ m.strings, Reads Format.bytes.read (putString s) s

/-! ### The arguments are written -/

theorem encodeCreateArgs_eq (dir : Fh3) (name : Bytes) (mode : CreateMode3) (attrs : Sattr3) :
    Nfs3.encodeCreateArgs dir name mode attrs =
      (Format.bytes.pair (Format.bytes.pair (Format.word.pair Nfs3.Wire.sattr3))).write
        (dir.data, name, mode.code, attrs.wire) := by
  unfold Nfs3.encodeCreateArgs
  rw [Nfs3.encodeFh3_eq, putString_eq, putUint32_eq, Nfs3.encodeSattr3_eq]
  simp only [List.append_assoc]
  rfl

theorem args_eq (m : Message) : m.request.args = m.format.write m.args := by
  cases m with
  | getport prog vers =>
    change putUint32 prog ++ putUint32 vers ++ putUint32 IPPROTO_TCP_XDR ++ putUint32 0 = _
    simp only [putUint32_eq, List.append_assoc]
    rfl
  | mount port proc export_path => exact putString_eq export_path
  | exportList port => rfl
  | nfs3 rpc c => exact c.encodeArgs_eq
  | create rpc dir name mode attrs => exact encodeCreateArgs_eq dir name mode attrs
  | file40 rpc m => exact (Nfs4Client.fileCall_announces m).compoundArgs 0
  | file41 c m => exact Nfs41Client.sequenced_compoundArgs (Nfs41Client.fileCall_announces m) _ _
  | compound rpc minorversion q ops hq => exact hq.compoundArgs minorversion
  | sequenced c q ops hq => exact Nfs41Client.sequenced_compoundArgs hq _ _

theorem measured (m : Message) : Format.Measured m.format m.argSize := by
  cases m with
  | getport => exact .pair .word (.pair .word (.pair .word .word))
  | mount => exact .bytes
  | exportList => exact .void
  | nfs3 rpc c => exact c.proc.measured
  | create => exact .pair .bytes (.pair .bytes (.pair .word Nfs3.measured_sattr3))
  | file40 | file41 | compound | sequenced => exact Compound.measured

theorem message_eq (m : Message) :
    m.request.message = (Wire.callHeader.pair m.format).write (m.request.header, m.args) := by
  rw [RpcRequest.message_eq, m.args_eq]
  rfl

theorem measured_call (m : Message) :
    Format.Measured (Wire.callHeader.pair m.format) fun x => headerSize x.1.auth + m.argSize x.2 :=
  measured_callHeader.pair m.measured

theorem argSize_args (m : Message) : m.argSize m.args = m.bodySize := by
  cases m with
  | file40 rpc m =>
    change compoundSize (Nfs4Client.fileCall m).tag (m.argOps.map ArgOp.size).sum = _
    rw [m.sum_size_argOps, Nfs4Client.tag_fileCall]
    rfl
  | file41 c m =>
    change compoundSize (Nfs41Client.fileCall m).tag (36 + (m.argOps.map ArgOp.size).sum) = _
    rw [m.sum_size_argOps, Nfs41Client.tag_fileCall]
    rfl
  | _ => rfl

theorem length_message (m : Message) : m.request.message.length = m.size := by
  rw [m.message_eq, m.measured_call.length_write]
  exact congrArg (headerSize m.request.auth + ·) m.argSize_args

/-! ### Short enough messages -/

variable {m : Message}

theorem countAgrees (h : m.size < 2 ^ 32) : m.CountAgrees := by
  cases m with
  | nfs3 rpc c =>
    cases c with
    | write fh offset stable data =>
      have hle := le_opaqueSize data.length
      have hsize : (nfs3 rpc (.write fh offset stable data)).size =
          headerSize rpc.auth_sys_ +
            (opaqueSize fh.data.length + (8 + (4 + (4 + opaqueSize data.length)))) := rfl
      exact toNat_ofNat_of_lt (by omega)
    | _ => exact trivial
  | _ => exact trivial

/-- A string in the attributes of one of the operations of a COMPOUND. -/
theorem length_lt_of_file {f : FileMethod} {tag s : Bytes} {minorversion : UInt32}
    {ops : List ArgOp} (hs : s ∈ f.strings) (hops : ∀ op ∈ f.argOps, op ∈ ops) :
    s.length < Compound.size ⟨tag, minorversion, ops⟩ := by
  obtain ⟨op, hop, hle⟩ := FileMethod.exists_op_of_string hs
  have hsum := Format.Measured.le_sum_of_mem (s := ArgOp.size) (hops op hop)
  change _ < opaqueSize tag.length + (4 + (4 + (ops.map ArgOp.size).sum))
  omega

theorem length_lt_of_mem_strings {s : Bytes} (hs : s ∈ m.strings) : s.length < m.size := by
  rw [size, ← m.argSize_args]
  cases m with
  | file40 rpc f =>
    exact lt_of_lt_of_le (length_lt_of_file hs fun _ h => h) (Nat.le_add_left _ _)
  | file41 c f =>
    exact lt_of_lt_of_le (length_lt_of_file hs fun _ h => List.mem_cons_of_mem _ h)
      (Nat.le_add_left _ _)
  | _ => exact absurd hs List.not_mem_nil

/-- The record mark is what decides. -/
theorem readBack_iff (m : Message) : m.ReadBack ↔ m.size < 2 ^ 31 := by
  constructor
  · intro h
    rw [← m.length_message]
    exact reads_addRecordMark_iff.mp h.mark
  · intro h
    have h32 : m.size < 2 ^ 32 := lt_trans h (by decide)
    -- what is below the limit of the mark is below all the others
    constructor
    · refine reads_addRecordMark_iff.mpr ?_
      rw [m.length_message]
      exact h
    · rw [m.message_eq]
      refine (m.measured_call.reads (a := (m.request.header, m.args)) ?_).run
      change headerSize m.request.auth + m.argSize m.args < 2 ^ 32
      rwa [m.argSize_args]
    · exact countAgrees h32
    · intro s hs
      rw [putString_eq]
      exact Format.bytes.reads (lt_trans (length_lt_of_mem_strings hs) h32)

end Message

/-! ### The client sends messages -/

/-- Whatever the program receives, all that it sends are messages. -/
def SendsMessages {α : Type} (p : Prog RpcRequest Received α) : Prop :=
  p.Sends (fun _ q => ∃ m : Message, m.request = q) []

section Sends

variable {σ α : Type}

/-- A message, whatever has been received. -/
def IsMessage (_ : List Received) (q : RpcRequest) : Prop := ∃ m : Message, m.request = q

theorem sendsMessages_iff {m : ClientM σ α} {c : σ} :
    SendsMessages (m c) ↔ wpM anyAnswer IsMessage (fun _ _ _ => True) m c [] := ClientM.sends_iff

variable {h : List Received}

namespace Nfs3

theorem sendsMessages_perform (c : Call) (rpc : TcpRpcClient) : SendsMessages (c.perform rpc) := by
  unfold SendsMessages
  rw [c.perform_eq]
  exact ⟨⟨.nfs3 rpc c, rfl⟩, fun _ => trivial⟩

theorem sendsMessages_readdir (fuel : ℕ) (dir : Fh3) (count : UInt32) (rpc : TcpRpcClient) :
    SendsMessages (readdir fuel dir count rpc) := by
  unfold SendsMessages readdir
  rw [readdirLoop_eq]
  refine (readdirPager dir count).loop_sends (fun _ rpc cookie cookieverf => ?_) _ _ _ _ _ _
  exact ⟨.nfs3 rpc (.readdirPage dir cookie cookieverf count), rfl⟩

theorem sendsMessages_readdirplus (fuel : ℕ) (dir : Fh3) (dircount maxcount : UInt32)
    (rpc : TcpRpcClient) : SendsMessages (readdirplus fuel dir dircount maxcount rpc) := by
  unfold SendsMessages readdirplus
  rw [readdirplusLoop_eq]
  refine (readdirplusPager dir dircount maxcount).loop_sends (fun _ rpc cookie cookieverf => ?_)
    _ _ _ _ _ _
  exact ⟨.nfs3 rpc (.readdirplusPage dir cookie cookieverf dircount maxcount), rfl⟩

theorem sendsMessages_mnt (export_path : Bytes) : SendsMessages (mnt export_path ()) :=
  sendsMessages_iff.mpr (wpM_mnt ⟨.getport MOUNT_PROG MOUNT_VERS, rfl⟩
    fun port => ⟨.mount port MOUNTPROC3_MNT export_path, rfl⟩)

theorem sendsMessages_umnt (export_path : Bytes) : SendsMessages (umnt export_path ()) :=
  sendsMessages_iff.mpr (wpM_umnt ⟨.getport MOUNT_PROG MOUNT_VERS, rfl⟩
    fun port => ⟨.mount port MOUNTPROC3_UMNT export_path, rfl⟩)

theorem sendsMessages_exportList : SendsMessages (exportList ()) :=
  sendsMessages_iff.mpr (wpM_exportList ⟨.getport MOUNT_PROG MOUNT_VERS, rfl⟩
    fun port => ⟨.exportList port, rfl⟩)

end Nfs3

namespace Nfs4Client

theorem sendsMessages_new (now : UInt64) (auth : Option AuthSys) :
    SendsMessages (new now auth ()) := by
  refine sendsMessages_iff.mpr (wpM_connectNfs_bind ⟨.getport NFS4_PROG NFS4_VERS, rfl⟩ fun _ _ _ =>
    ⟨fun _ => trivial, fun rpc => ?_⟩)
  refine wpM_bind.mpr (wpM_onLocal.mpr (wpM_doSetclientidConfirm.mpr
    ⟨⟨.compound rpc 0 _ _ (setclientid_announces now), rfl⟩, fun r₁ h₁ _ => ?_⟩))
  cases (setclientid now).result r₁ with
  | error e => exact trivial
  | ok res =>
    refine ⟨⟨.compound _ 0 _ _ (setclientidConfirm_announces res), rfl⟩, fun r₂ h₂ _ => ?_⟩
    cases (setclientidConfirm res).result r₂ with
    | error e => exact trivial
    | ok _ =>
      refine wpM_bind.mpr (wpM_onLocal.mpr (wpM_doGetRootFh.mpr
        ⟨⟨.compound _ 0 _ _ getRootFh_announces, rfl⟩, fun r₃ h₃ _ => ?_⟩))
      cases getRootFh.result r₃ <;> exact trivial

end Nfs4Client

namespace Nfs41Client

theorem sendsMessages_new (now : UInt64) (auth : Option AuthSys) :
    SendsMessages (new now auth ()) := by
  refine sendsMessages_iff.mpr (wpM_connectNfs_bind ⟨.getport NFS4_PROG NFS4_VERS, rfl⟩ fun _ _ _ =>
    ⟨fun _ => trivial, fun rpc => ?_⟩)
  refine wpM_bind.mpr (wpM_onLocal.mpr (wpM_doBootstrap.mpr
    ⟨⟨.compound rpc 1 _ _ (exchangeId_announces now), rfl⟩, fun r₁ h₁ _ => ?_⟩))
  cases (exchangeId now).result r₁ with
  | error e => exact trivial
  | ok exid =>
    refine ⟨⟨.compound _ 1 _ _ (createSession_announces exid), rfl⟩, fun r₂ h₂ _ => ?_⟩
    cases (createSession exid).result r₂ with
    | error e => exact trivial
    | ok sid =>
      refine wpM_bind.mpr (wpM_onLocal.mpr (wpM_enterSession.mpr
        ⟨⟨.sequenced _ _ _ reclaimComplete_announces, rfl⟩, fun r₃ h₃ _ => ?_⟩))
      cases reclaimComplete.result r₃ with
      | error e => exact trivial
      | ok _ =>
        refine ⟨⟨.sequenced _ _ _ getRootFh_announces, rfl⟩, fun r₄ h₄ _ => ?_⟩
        cases getRootFh.result r₄ <;> exact trivial

end Nfs41Client

end Sends

/-- The functions of the public API that talk to a server. -/
structure SendsOnlyMessages : Prop where
  getport : ∀ prog vers, SendsMessages (getport prog vers ())
  mnt : ∀ export_path, SendsMessages (Nfs3.mnt export_path ())
  umnt : ∀ export_path, SendsMessages (Nfs3.umnt export_path ())
  exportList : SendsMessages (Nfs3.exportList ())
  nfs3 : ∀ (c : Nfs3.Call) rpc, SendsMessages (c.perform rpc)
  readdir : ∀ fuel dir count rpc, SendsMessages (Nfs3.readdir fuel dir count rpc)
  readdirplus : ∀ fuel dir dircount maxcount rpc,
    SendsMessages (Nfs3.readdirplus fuel dir dircount maxcount rpc)
  new40 : ∀ now auth, SendsMessages (Nfs4Client.new now auth ())
  perform40 : ∀ fuel m c, SendsMessages (Nfs4Client.perform fuel m c)
  new41 : ∀ now auth, SendsMessages (Nfs41Client.new now auth ())
  perform41 : ∀ fuel m c, SendsMessages (Nfs41Client.perform fuel m c)

theorem sendsOnlyMessages : SendsOnlyMessages where
  getport prog vers := sendsMessages_iff.mpr (wpM_getport ⟨.getport prog vers, rfl⟩
    fun _ _ _ _ => trivial)
  mnt := Nfs3.sendsMessages_mnt
  umnt := Nfs3.sendsMessages_umnt
  exportList := Nfs3.sendsMessages_exportList
  nfs3 := Nfs3.sendsMessages_perform
  readdir := Nfs3.sendsMessages_readdir
  readdirplus := Nfs3.sendsMessages_readdirplus
  new40 := Nfs4Client.sendsMessages_new
  perform40 fuel m c := sendsMessages_iff.mpr (Nfs4Client.wpM_perform
    (fun hq _ _ rpc => ⟨.compound rpc 0 _ _ hq, rfl⟩) fuel m c [])
  new41 := Nfs41Client.sendsMessages_new
  perform41 fuel m _ := sendsMessages_iff.mpr (wpM_mono (fun _ _ _ _ => trivial)
    (Nfs41Client.wpM_perform (I := fun _ _ => True) (fun _ _ _ _ _ _ => trivial)
      (fun hq _ _ _ _ => ⟨⟨.sequenced _ _ _ hq, rfl⟩, fun _ _ _ => trivial⟩) fuel m trivial))

/-! ### The limit -/

/-- **Frames at the size limits.** The client sends nothing but messages, and a message is read back
by its peer exactly if its CALL has less than `2 ^ 31` bytes. -/
theorem frames_read_back_iff (m : Message) :
    SendsOnlyMessages ∧ (m.ReadBack ↔ m.size < 2 ^ 31) :=
  ⟨sendsOnlyMessages, m.readBack_iff⟩

/-- The data of a WRITE alone can be too long. -/
theorem Message.not_readBack_write {rpc : TcpRpcClient} {fh : Fh3} {offset : UInt64}
    {stable : Stable3} {data : Bytes} (h : 2 ^ 31 ≤ data.length) :
    ¬ (nfs3 rpc (.write fh offset stable data)).ReadBack := by
  rw [readBack_iff, Message.size]
  change ¬ headerSize rpc.auth_sys_ +
    (opaqueSize fh.data.length + (8 + (4 + (4 + opaqueSize data.length)))) < 2 ^ 31
  have hle := le_opaqueSize data.length
  omega

/-- WRITE of `2 ^ 31` bytes to a handle of one byte. The mark announces 68 bytes. -/
theorem long_write_not_read_back :
    ¬ (Message.nfs3 (TcpRpcClient.connect 2049)
      (.write ⟨[1]⟩ 0 ⟨0⟩ (List.replicate (2 ^ 31) 0))).ReadBack :=
  Message.not_readBack_write List.length_replicate.ge

end NfsClient
