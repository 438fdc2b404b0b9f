import NfsClient.Lib.Effects
import NfsClient.Nfs4.Readdir

/-!
# COMPOUND as a machine

A COMPOUND is a program for a machine with two registers, the current and the saved filehandle. Its
operations set the registers or work on what is in them, the machine stops at the first one that
fails, and what the operations before it have done stays done. `ObjectStore` is what is behind the
machine: what the operations do to objects, with no registers in it.

A method of the client is such a program and a decoder, but what its caller means is one operation on
given objects: `rename` moves a name from one directory to another, and that the source directory is
put into the saved register is nobody's business. `FileMethod.meaning` says what a method means, and
`FileMethod.agree_argOps` that its program does that, whatever the store does and wherever it fails.
-/

namespace NfsClient

open Xdr Reader Effects

/-! ### Stores of objects -/

/-- A status other than `NFS4_OK`. -/
abbrev Status4 : Type := { status : UInt32 // status ≠ 0 }

/-- `NFS4ERR_NOFILEHANDLE`: the register that an operation needs is empty. -/
def noFilehandle : Status4 := ⟨10020, by decide⟩

/-- What a server does in a state of type `σ`. -/
abbrev Serve (σ α : Type) : Type := Eff Status4 σ α

/-- What a server knows an object by; the protocol has at most 128 bytes for it (`NFS4_FHSIZE`). -/
abbrev Handle : Type := { fh : Bytes // fh.length ≤ 128 }

/-- A success result that has an encoding. -/
abbrev Op.Good (o : Op) : Type := { r : o.Res // o.resFormat.Fits r }

/-- The attributes of an object as GETATTR returns them: a bitmap, and the values that it describes. -/
structure Attributes where
  bm : List UInt32
  attrs : ServerAttrs
  describes : attrs.Describes bm
  fits : Op.GETATTR.resFormat.Fits (bm, attrs.attrlist)

/-- A page of a directory as READDIR returns it. -/
structure Listed where
  verf : Octets 8
  entries : List ServerEntry
  eof : Bool
  fits : Op.READDIR.resFormat.Fits (readdirRes verf entries eof)

/-- What operations do to objects. -/
structure ObjectStore (σ : Type) where
  root : Serve σ Handle
  /-- The object of a handle that the client has sent. -/
  find : Bytes → Serve σ Handle
  attributes : List UInt32 → Handle → Serve σ Attributes
  entries : Op.READDIR.Args → Handle → Serve σ Listed
  /-- An operation on one object. -/
  apply : (o : Op) → o.Args → Handle → Serve σ o.Good
  /-- An operation on a directory, and the object in it that it comes to. -/
  reach : (o : Op) → o.Args → Handle → Serve σ (o.Good × Handle)
  rename : (source target : Handle) → Bytes × Bytes → Serve σ (Op.Good .RENAME)
  /-- An operation on no object. -/
  serve : (o : Op) → o.Args → Serve σ o.Good

/-! ### The machine -/

/-- The current and the saved filehandle. -/
structure Registers where
  current : Option Handle
  saved : Option Handle

/-- The filehandle that an operation needs. -/
def need {σ : Type} : Option Handle → Serve σ Handle
  | some fh => pure fh
  | none => throw noFilehandle

namespace ObjectStore

variable {σ : Type} (store : ObjectStore σ)

/-- An operation on the current filehandle, which stays. -/
def inPlace (o : Op) (a : o.Args) (g : Registers) : Serve σ (o.Good × Registers) := do
  let fh ← need g.current
  let r ← store.apply o a fh
  return (r, g)

/-- An operation on the current filehandle that makes another one current. -/
def moving (o : Op) (a : o.Args) (g : Registers) : Serve σ (o.Good × Registers) := do
  let fh ← need g.current
  let r ← store.reach o a fh
  return (r.1, { g with current := some r.2 })

/-- An operation that uses no filehandle. -/
def global (o : Op) (a : o.Args) (g : Registers) : Serve σ (o.Good × Registers) := do
  let r ← store.serve o a
  return (r, g)

/-- One operation. -/
def exec : (op : ArgOp) → Registers → Serve σ (op.1.Good × Registers)
  | ⟨.PUTROOTFH, _⟩, g => do
    let fh ← store.root
    return (⟨(), trivial⟩, { g with current := some fh })
  | ⟨.PUTFH, fh⟩, g => do
    let fh ← store.find fh
    return (⟨(), trivial⟩, { g with current := some fh })
  | ⟨.SAVEFH, _⟩, g => do
    let fh ← need g.current
    return (⟨(), trivial⟩, { g with saved := some fh })
  | ⟨.GETFH, _⟩, g => do
    let fh ← need g.current
    return (⟨fh.1, lt_of_le_of_lt fh.2 (by decide)⟩, g)
  | ⟨.GETATTR, ids⟩, g => do
    let fh ← need g.current
    let r ← store.attributes ids fh
    return (⟨(r.bm, r.attrs.attrlist), r.fits⟩, g)
  | ⟨.READDIR, a⟩, g => do
    let fh ← need g.current
    let r ← store.entries a fh
    return (⟨readdirRes r.verf r.entries r.eof, r.fits⟩, g)
  | ⟨.RENAME, names⟩, g => do
    let target ← need g.current
    let source ← need g.saved
    let r ← store.rename source target names
    return (r, g)
  | ⟨.LOOKUP, a⟩, g => store.moving .LOOKUP a g
  | ⟨.CREATE, a⟩, g => store.moving .CREATE a g
  | ⟨.OPEN, a⟩, g => store.moving .OPEN a g
  | ⟨.ACCESS, a⟩, g => store.inPlace .ACCESS a g
  | ⟨.CLOSE, a⟩, g => store.inPlace .CLOSE a g
  | ⟨.COMMIT, a⟩, g => store.inPlace .COMMIT a g
  | ⟨.OPEN_CONFIRM, a⟩, g => store.inPlace .OPEN_CONFIRM a g
  | ⟨.READ, a⟩, g => store.inPlace .READ a g
  | ⟨.READLINK, a⟩, g => store.inPlace .READLINK a g
  | ⟨.REMOVE, a⟩, g => store.inPlace .REMOVE a g
  | ⟨.SETATTR, a⟩, g => store.inPlace .SETATTR a g
  | ⟨.WRITE, a⟩, g => store.inPlace .WRITE a g
  | ⟨.RENEW, a⟩, g => store.global .RENEW a g
  | ⟨.SETCLIENTID, a⟩, g => store.global .SETCLIENTID a g
  | ⟨.SETCLIENTID_CONFIRM, a⟩, g => store.global .SETCLIENTID_CONFIRM a g
  | ⟨.EXCHANGE_ID, a⟩, g => store.global .EXCHANGE_ID a g
  | ⟨.CREATE_SESSION, a⟩, g => store.global .CREATE_SESSION a g
  | ⟨.SEQUENCE, a⟩, g => store.global .SEQUENCE a g
  | ⟨.RECLAIM_COMPLETE, a⟩, g => store.global .RECLAIM_COMPLETE a g

/-- The operations in order, up to the first that fails. -/
def run : List ArgOp → Registers → Serve σ (List ResOp)
  | [], _ => return []
  | op :: ops, g => do
    let r ← store.exec op g
    let rs ← run ops r.2
    return ⟨op.1, r.1.1⟩ :: rs

/-- A COMPOUND begins with no filehandle. -/
def compound (ops : List ArgOp) : Serve σ (List ResOp) := store.run ops ⟨none, none⟩

/-! ### What the machine returns -/

/-- The results are those of the operations, and have encodings. -/
structure Results (ops : List ArgOp) (rs : List ResOp) : Prop where
  opcodes : rs.map Sigma.fst = ops.map Sigma.fst
  fits : ∀ r ∈ rs, r.1.resFormat.Fits r.2

variable {store}

theorem run_results : ∀ {ops : List ArgOp} {g : Registers} {rs : List ResOp} {s s' : σ},
    (store.run ops g).on s = (.ok rs, s') → Results ops rs
  | [], _, _, _, _, h => by
    cases h
    exact ⟨rfl, fun _ hr => absurd hr List.not_mem_nil⟩
  | op :: ops, g, rs, s, s', h => by
    obtain ⟨⟨r, g'⟩, s₁, -, hrest⟩ := Eff.bind_ok.mp h
    obtain ⟨rs', s₂, hrun, hpure⟩ := Eff.bind_ok.mp hrest
    cases hpure
    obtain ⟨hops, hfits⟩ := run_results hrun
    exact ⟨congrArg (op.1 :: ·) hops, List.forall_mem_cons.mpr ⟨r.2, hfits⟩⟩

end ObjectStore

/-! ### What the methods mean -/

namespace ObjectStore

variable {σ : Type} (store : ObjectStore σ)

/-- The object of a filehandle of the client; the empty one is the root. -/
def resolve (fh : Nfs4Fh) : Serve σ Handle :=
  if fh.data = [] then store.root else store.find fh.data

end ObjectStore

/-- What a method means, as an operation on objects. -/
def FileMethod.meaning {σ : Type} (store : ObjectStore σ) : (m : FileMethod) → Serve σ m.Result
  | .lookup dir name => do
    let dir ← store.resolve dir
    let r ← store.reach .LOOKUP name dir
    return ⟨r.2.1⟩
  | .getattr fh => do
    let fh ← store.resolve fh
    let r ← store.attributes (makeBitmap4 getattrIds) fh
    return r.attrs.toFattr4
  | .access fh mask => do
    let fh ← store.resolve fh
    let r ← store.apply .ACCESS mask fh
    return r.1.2
  | .close f => do
    let fh ← store.resolve f.fh
    let _ ← store.apply .CLOSE (f.seqid, f.stateid) fh
    return ()
  | .read f offset count => do
    let fh ← store.resolve f.fh
    let r ← store.apply .READ (f.stateid, offset, count) fh
    return r.1.2
  | .write f offset stable data => do
    let fh ← store.resolve f.fh
    let r ← store.apply .WRITE (f.stateid, offset, stable.value, data) fh
    return r.1.1
  | .commit f offset count => do
    let fh ← store.resolve f.fh
    let r ← store.apply .COMMIT (offset, count) fh
    return r.1
  | .mkdir dir name attrs => do
    let dir ← store.resolve dir
    let r ← store.reach .CREATE (⟨.DIR, ()⟩, name, attrs.wire) dir
    return ⟨r.2.1⟩
  | .remove dir name => do
    let dir ← store.resolve dir
    let _ ← store.apply .REMOVE name dir
    return ()
  | .rename src_dir src_name dst_dir dst_name => do
    let source ← store.resolve src_dir
    let target ← store.resolve dst_dir
    let _ ← store.rename source target (src_name, dst_name)
    return ()
  | .symlink dir name target attrs => do
    let dir ← store.resolve dir
    let r ← store.reach .CREATE (⟨.LNK, target⟩, name, attrs.wire) dir
    return ⟨r.2.1⟩
  | .readlink fh => do
    let fh ← store.resolve fh
    let r ← store.apply .READLINK () fh
    return r.1
  | .setattr fh attrs => do
    let fh ← store.resolve fh
    let _ ← store.apply .SETATTR (Stateid4.anonymous, attrs.wire) fh
    return ()

namespace ObjectStore

variable {σ : Type} (store : ObjectStore σ)

/-- What the OPEN of `do_open` means. -/
def opening (dir : Nfs4Fh) (a : OpenArgs) : Serve σ (Open4Result × Nfs4Fh) := do
  let dir ← store.resolve dir
  let r ← store.reach .OPEN a dir
  return (⟨r.1.1.stateid, r.1.1.rflags⟩, ⟨r.2.1⟩)

/-- What its OPEN_CONFIRM means. -/
def confirming (fh : Nfs4Fh) (stateid : Stateid4) (confirm_seqid : UInt32) : Serve σ Stateid4 := do
  let fh ← store.resolve fh
  let r ← store.apply .OPEN_CONFIRM (stateid, confirm_seqid) fh
  return r.1

/-- One page of `readdir`. -/
def page (dir : Nfs4Fh) (cookie : UInt64) (cookieverf : Octets 8) : Serve σ ReaddirPage4 := do
  let dir ← store.resolve dir
  let r ← store.entries (cookie, cookieverf, 4096, 32768, makeBitmap4 readdirIds) dir
  return ⟨r.verf, r.entries.map ServerEntry.view, r.eof⟩

def renewing (clientid : UInt64) : Serve σ Unit := do
  let _ ← store.serve .RENEW clientid
  return ()

end ObjectStore

/-! ### The programs of the methods -/

section

variable {σ α : Type} {store : ObjectStore σ} {Q : List ResOp → α → Prop}

/-- A program goes on behind its first operation. -/
theorem agree_cons {β : Type} {op : ArgOp} {ops : List ArgOp} {g : Registers}
    {P : op.1.Good × Registers → β → Prop} {x : Serve σ β} {f : β → Serve σ α}
    (hop : Agree P (store.exec op g) x)
    (hops : ∀ r b, P r b → Agree (fun rs v => Q (⟨op.1, r.1.1⟩ :: rs) v) (store.run ops r.2) (f b)) :
    Agree Q (store.run (op :: ops) g) (x >>= f) := by
  refine hop.bind fun r b hr => ?_
  have hrest : Agree Q (store.run ops r.2 >>= fun rs => pure (⟨op.1, r.1.1⟩ :: rs)) (f b >>= pure) :=
    (hops r b hr).bind fun rs v h => .pure h
  rwa [bind_pure] at hrest

/-- The program has come to its end. -/
theorem agree_nil {g : Registers} {v : α} (h : Q [] v) : Agree Q (store.run [] g) (pure v) := .pure h

/-- The current filehandle is set. -/
theorem agree_fhOp (fh : Nfs4Fh) (g : Registers) :
    Agree (fun r h => r.2 = { g with current := some h }) (store.exec (fhOp fh) g)
      (store.resolve fh) := by
  unfold ObjectStore.resolve
  by_cases hroot : fh.data = []
  · rw [show fhOp fh = ⟨.PUTROOTFH, ()⟩ from if_pos hroot, if_pos hroot]
    exact Agree.wrap store.root fun _ => rfl
  · rw [show fhOp fh = ⟨.PUTFH, fh.data⟩ from if_neg hroot, if_neg hroot]
    exact Agree.wrap (store.find fh.data) fun _ => rfl

/-- What is done with the current filehandle. -/
theorem agree_current {β γ : Type} (x : Handle → Serve σ β) (f : β → γ) {g : Registers} {h : Handle}
    (hg : g.current = some h) :
    Agree (fun r b => r = f b) (need g.current >>= fun fh => x fh >>= fun b => pure (f b)) (x h) := by
  rw [hg]
  exact Agree.wrap (x h) fun _ => rfl

/-- A filehandle, and one operation on it, whatever its result is in other terms. -/
theorem agree_on {β : Type} {fh : Nfs4Fh} {o : ArgOp} {x : Handle → Serve σ β} {w : β → o.1.Good}
    {f : β → α}
    (hexec : ∀ g, store.exec o g = need g.current >>= fun h => x h >>= fun b => pure (w b, g))
    (hQ : ∀ r₀ b, Q [r₀, ⟨o.1, (w b).1⟩] (f b)) :
    Agree Q (store.compound [fhOp fh, o]) (do
      let h ← store.resolve fh
      let b ← x h
      return f b) := by
  refine agree_cons (agree_fhOp fh _) fun r₀ h hr₀ => ?_
  refine agree_cons (P := fun r b => r = (w b, r₀.2)) ?_ fun r b hr => ?_
  · rw [hexec]
    exact agree_current x _ (by rw [hr₀])
  · obtain rfl := hr
    exact agree_nil (hQ _ b)

/-- The same with an operation that leaves its result as it is. -/
theorem agree_two {fh : Nfs4Fh} {o : Op} {a : o.Args} {f : o.Good → α}
    (hexec : ∀ g, store.exec ⟨o, a⟩ g = store.inPlace o a g)
    (hQ : ∀ r₀ (r : o.Good), Q [r₀, ⟨o, r.1⟩] (f r)) :
    Agree Q (store.compound [fhOp fh, ⟨o, a⟩]) (do
      let h ← store.resolve fh
      let r ← store.apply o a h
      return f r) :=
  agree_on (o := ⟨o, a⟩) (x := store.apply o a) (w := id) hexec hQ

/-- A filehandle, an operation that makes another one current, and the question for it. -/
theorem agree_getfh {fh : Nfs4Fh} {o : Op} {a : o.Args} {f : o.Good × Handle → α}
    (hexec : ∀ g, store.exec ⟨o, a⟩ g = store.moving o a g)
    (hQ : ∀ r₀ (r : o.Good × Handle), Q [r₀, ⟨o, r.1.1⟩, ⟨.GETFH, r.2.1⟩] (f r)) :
    Agree Q (store.compound [fhOp fh, ⟨o, a⟩, ⟨.GETFH, ()⟩]) (do
      let h ← store.resolve fh
      let r ← store.reach o a h
      return f r) := by
  refine agree_cons (agree_fhOp fh _) fun r₀ h hr₀ => ?_
  refine agree_cons (P := fun r b => r = (b.1, { r₀.2 with current := some b.2 })) ?_ fun r b hr => ?_
  · rw [hexec]
    exact agree_current (store.reach o a) _ (by rw [hr₀])
  · obtain rfl := hr
    -- the register holds what the operation has come to, and GETFH does not fail
    exact .pure (hQ _ b)

end

/-- **The programs of the methods.** The COMPOUND of a method does what the method means: it fails with
the same status, or its results say what the method returns, and either way the store is left in the
same state. -/
theorem FileMethod.agree_argOps {σ : Type} (store : ObjectStore σ) (m : FileMethod) :
    Agree (fun rs v => m.Encodes rs v) (store.compound m.argOps) (m.meaning store) := by
  cases m with
  | lookup dir name => exact agree_getfh (fun _ => rfl) fun _ _ => rfl
  | getattr fh =>
    exact agree_on (o := ⟨.GETATTR, makeBitmap4 getattrIds⟩) (w := fun r => ⟨_, r.fits⟩)
      (fun _ => rfl) fun _ r => ⟨r.bm, r.attrs, rfl, r.describes, rfl⟩
  | access fh mask => exact agree_two (fun _ => rfl) fun _ r => ⟨r.1.1, rfl⟩
  | close f => exact agree_two (fun _ => rfl) fun _ _ => trivial
  | read f offset count => exact agree_two (fun _ => rfl) fun _ r => ⟨r.1.1, rfl⟩
  | write f offset stable data =>
    exact agree_two (fun _ => rfl) fun _ r => ⟨r.1.2.1, r.1.2.2, rfl⟩
  | commit f offset count => exact agree_two (fun _ => rfl) fun _ _ => rfl
  | mkdir dir name attrs => exact agree_getfh (fun _ => rfl) fun _ _ => rfl
  | remove dir name => exact agree_two (fun _ => rfl) fun _ _ => trivial
  | rename src_dir src_name dst_dir dst_name =>
    refine agree_cons (agree_fhOp src_dir _) fun r₀ source hr₀ => ?_
    -- SAVEFH cannot fail here, and means nothing by itself
    have hsave : Agree (fun (r : Op.Good .SAVEFH × Registers) (_ : Unit) => r.2.saved = some source)
        (store.exec ⟨.SAVEFH, ()⟩ r₀.2) (pure ()) := by
      rw [hr₀]
      exact Agree.pure rfl
    rw [← pure_bind () fun _ => (store.resolve dst_dir >>= _)]
    refine agree_cons hsave fun r₁ _ hr₁ => ?_
    refine agree_cons (agree_fhOp dst_dir _) fun r₂ target hr₂ => ?_
    have hrename : Agree (fun _ _ => True) (store.exec ⟨.RENAME, (src_name, dst_name)⟩ r₂.2)
        (store.rename source target (src_name, dst_name)) := by
      change Agree _ (need r₂.2.current >>= _) _
      rw [hr₂, hr₁]
      exact Agree.wrap (store.rename source target _) fun _ => trivial
    exact agree_cons hrename fun _ _ _ => agree_nil trivial
  | symlink dir name target attrs => exact agree_getfh (fun _ => rfl) fun _ _ => rfl
  | readlink fh => exact agree_two (fun _ => rfl) fun _ _ => rfl
  | setattr fh attrs => exact agree_two (fun _ => rfl) fun _ _ => trivial

/-! ### Programs and decoders -/

section

variable {σ α : Type}

/-- The results have a count and encodings, and `d` reads them as `v`. -/
structure Conveys (d : XdrDecoder α) (rs : List ResOp) (v : α) : Prop where
  count : rs.length < 2 ^ 32
  fits : ∀ r ∈ rs, r.1.resFormat.Fits r.2
  reads : Reads d (writeResults rs) v

/-- The COMPOUND of `ops` does `x`, as far as one can tell from what `d` reads in its results. -/
structure Implements (store : ObjectStore σ) (ops : List ArgOp) (d : XdrDecoder α) (x : Serve σ α) :
    Prop where
  short : ops.length ≤ 4
  agree : Agree (fun rs v => ObjectStore.Results ops rs ∧ Reads d (writeResults rs) v)
    (store.compound ops) x

variable {store : ObjectStore σ} {ops : List ArgOp} {d : XdrDecoder α} {x : Serve σ α}
  {S : List ResOp → α → Prop}

theorem Implements.of_agree (hshort : ops.length ≤ 4)
    (h : Agree S (store.compound ops) x)
    (hreads : ∀ rs v, ObjectStore.Results ops rs → S rs v → Reads d (writeResults rs) v) :
    Implements store ops d x where
  short := hshort
  agree := h.mono fun _ rs _ v hrun hsays =>
    have hresults := ObjectStore.run_results hrun
    ⟨hresults, hreads rs v hresults hsays⟩

theorem ObjectStore.Results.count {rs : List ResOp} (h : Results ops rs) :
    rs.length = ops.length := by
  simpa only [List.length_map] using congrArg List.length h.opcodes

/-- Outside a session the results are those of the operations. -/
theorem Implements.conveys (h : Implements store ops d x) :
    Agree (Conveys d) (store.compound ops) x := by
  refine h.agree.mono fun _ rs _ v _ hrs => ⟨?_, hrs.1.fits, hrs.2⟩
  rw [hrs.1.count]
  exact lt_of_le_of_lt h.short (by decide)

/-- In a session the result of SEQUENCE is in front. -/
theorem Implements.conveys_sequence (h : Implements store ops d x) (r : Op.SEQUENCE.Res) :
    Agree (Conveys (do decodeSequence41Result; d))
      (store.compound ops >>= fun rs => pure (⟨.SEQUENCE, r⟩ :: rs)) x := by
  have hcons : Agree (Conveys (do decodeSequence41Result; d))
      (store.compound ops >>= fun rs => pure (⟨.SEQUENCE, r⟩ :: rs)) (x >>= pure) := by
    refine h.agree.bind fun rs v hrs => .pure ⟨?_, ?_, ?_⟩
    · rw [List.length_cons, hrs.1.count]
      exact lt_of_le_of_lt (Nat.succ_le_succ h.short) (by decide)
    · have hfits : Op.SEQUENCE.resFormat.Fits r := ⟨trivial, trivial, trivial, trivial, trivial, trivial⟩
      exact List.forall_mem_cons.mpr ⟨hfits, hrs.1.fits⟩
    · exact (decodeSequence41Result_reads r).bind hrs.2
  rwa [bind_pure] at hcons

/-! ### The COMPOUNDs of the client -/

theorem FileMethod.length_argOps_le (m : FileMethod) : m.argOps.length ≤ 4 := by
  cases m <;> simp [FileMethod.argOps]

variable (store)

theorem implements_file (m : FileMethod) :
    Implements store m.argOps m.decodeResults (m.meaning store) :=
  .of_agree m.length_argOps_le (m.agree_argOps store) fun _ _ h =>
    FileMethod.decodeResults_reads h.fits h.opcodes

theorem implements_open (dir : Nfs4Fh) (a : OpenArgs) :
    Implements store [fhOp dir, ⟨.OPEN, a⟩, ⟨.GETFH, ()⟩] decodeOpenResults (store.opening dir a) :=
  .of_agree (by simp) (agree_getfh (fun _ => rfl) fun r₀ r => ⟨[r₀], r.1.1, rfl, rfl⟩)
    fun _ _ h => decodeOpenResults_reads h.fits h.opcodes

theorem implements_confirm (fh : Nfs4Fh) (stateid : Stateid4) (confirm_seqid : UInt32) :
    Implements store [fhOp fh, ⟨.OPEN_CONFIRM, (stateid, confirm_seqid)⟩]
      (do decodePutfhResult; decodeOpenConfirmResult) (store.confirming fh stateid confirm_seqid) := by
  refine .of_agree (S := fun rs v => rs.getLast? = some ⟨.OPEN_CONFIRM, v⟩) (by simp)
    (agree_two (fun _ => rfl) fun _ _ => rfl) fun rs v h hv => ?_
  refine reads_two h.fits h.opcodes fun r _ hr => ?_
  cases hv.symm.trans hr
  exact decodeOpenConfirmResult_reads v

theorem implements_page (dir : Nfs4Fh) (cookie : UInt64) (cookieverf : Octets 8) :
    Implements store (readdirOps dir cookie cookieverf)
      (do decodePutfhResult; decodeReaddirResult) (store.page dir cookie cookieverf) :=
  .of_agree (by simp [readdirOps])
    (agree_on (o := ⟨.READDIR, (cookie, cookieverf, 4096, 32768, makeBitmap4 readdirIds)⟩)
      (w := fun r => ⟨_, r.fits⟩) (fun _ => rfl) fun _ r => ⟨r.verf, r.entries, r.eof, rfl, rfl⟩)
    fun _ _ h => decodePage_reads h.fits h.opcodes

theorem implements_renew (clientid : UInt64) :
    Implements store [⟨.RENEW, clientid⟩] decodeRenewResult (store.renewing clientid) := by
  have hexec : Agree (fun _ _ => True) (store.exec ⟨.RENEW, clientid⟩ ⟨none, none⟩)
      (store.serve .RENEW clientid) := Agree.wrap _ fun _ => trivial
  refine .of_agree (S := fun _ _ => True) (by simp)
    (agree_cons hexec fun _ _ _ => agree_nil trivial) fun rs v h _ => ?_
  obtain ⟨r, rest, rfl, hrest⟩ := exists_cons_of_opcodes h.opcodes
  obtain rfl := eq_nil_of_opcodes hrest
  simpa only [writeResults, List.flatMap_cons, List.flatMap_nil, List.append_nil]
    using decodeRenewResult_reads

end

/-- **The COMPOUNDs preserve meaning.** Whatever the store does and wherever it fails, the COMPOUND of a
method does what the method means: it leaves the store in the same state, and fails with the same status
or has results that the decoder of the method reads as the same value. -/
theorem compounds_preserve_meaning {σ : Type} (store : ObjectStore σ) :
    (∀ m : FileMethod, Implements store m.argOps m.decodeResults (m.meaning store)) ∧
    (∀ dir a, Implements store [fhOp dir, ⟨.OPEN, a⟩, ⟨.GETFH, ()⟩] decodeOpenResults
      (store.opening dir a)) ∧
    (∀ fh stateid confirm_seqid, Implements store [fhOp fh, ⟨.OPEN_CONFIRM, (stateid, confirm_seqid)⟩]
      (do decodePutfhResult; decodeOpenConfirmResult) (store.confirming fh stateid confirm_seqid)) ∧
    (∀ dir cookie cookieverf, Implements store (readdirOps dir cookie cookieverf)
      (do decodePutfhResult; decodeReaddirResult) (store.page dir cookie cookieverf)) ∧
    ∀ clientid, Implements store [⟨.RENEW, clientid⟩] decodeRenewResult (store.renewing clientid) :=
  ⟨implements_file store, implements_open store, implements_confirm store, implements_page store,
    implements_renew store⟩

end NfsClient
