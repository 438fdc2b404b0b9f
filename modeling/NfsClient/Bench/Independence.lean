import NfsClient.Bench.SharedDir
import NfsClient.Nfs3.Concurrent

/-!
# The threads of a benchmark are independent

The threads of `run_workload` share the directory of the run, and nothing keeps one of them from the
files of another but the names that they use. These are enough: a name has the number of its thread in
it, and no two threads have one in common (`Workload.own_unique`). So each workload keeps to the
discipline of `SharedDir`, and can be verified for one thread by itself (`holdsM_run`).

`threads_are_independent` puts this together with the atomicity of requests. However the system calls of
the threads and the work of the server are interleaved, no thread is ever stuck or refused anything; each
has one sample for each of its turns, and the results of the run are those of all turns of all threads.
When all threads have ended the directory is as before.
-/

namespace NfsClient

open Xdr Interaction Nfs3

namespace Bench

/-! ### Names of files -/

theorem ascii_append (s t : String) : ascii (s ++ t) = ascii s ++ ascii t := by
  unfold ascii
  rw [String.toList_append, List.map_append]

/-- The digits of a number, as bytes. -/
theorem ascii_toString (n : ℕ) :
    ascii (toString n) = (Nat.toDigits 10 n).map fun c => UInt8.ofNat c.toNat := by
  unfold ascii
  rw [Nat.toString_eq_repr, Nat.toList_repr]

theorem toNat_digit {n : ℕ} {c : Char} (h : c ∈ Nat.toDigits 10 n) :
    (UInt8.ofNat c.toNat).toNat = c.toNat ∧ c.toNat ≤ 57 := by
  have hdigit := Nat.isDigit_of_mem_toDigits (by decide) (le_refl 10) h
  unfold Char.isDigit at hdigit
  have hle : c.toNat ≤ 57 := (Bool.and_eq_true_iff.mp hdigit).2 |> of_decide_eq_true
  refine ⟨?_, hle⟩
  rw [UInt8.toNat_ofNat', Nat.mod_eq_of_lt (by omega)]

/-- The characters come back from their bytes, and the number from its digits. -/
theorem ascii_toString_injective {m n : ℕ} (h : ascii (toString m) = ascii (toString n)) : m = n := by
  have hback : ∀ k : ℕ, (ascii (toString k)).map (fun b => Char.ofNat b.toNat) = Nat.toDigits 10 k := by
    intro k
    rw [ascii_toString, List.map_map]
    refine (List.map_congr_left fun c hc => ?_).trans (List.map_id _)
    show Char.ofNat (UInt8.ofNat c.toNat).toNat = c
    rw [(toNat_digit hc).1, Char.ofNat_toNat]
  have hdigits : Nat.toDigits 10 m = Nat.toDigits 10 n := by rw [← hback m, h, hback]
  have hvalue := congrArg (fun digits => Nat.ofDigitChars 10 digits 0) hdigits
  simpa using hvalue

theorem underscore_notMem (n : ℕ) : (95 : UInt8) ∉ ascii (toString n) := by
  rw [ascii_toString]
  intro hmem
  obtain ⟨c, hc, heq⟩ := List.mem_map.mp hmem
  obtain ⟨hnat, hle⟩ := toNat_digit hc
  rw [heq] at hnat
  have hval : (95 : UInt8).toNat = 95 := rfl
  omega

theorem length_ascii_toString {n k : ℕ} (hk : 0 < k) (h : n < 10 ^ k) :
    (ascii (toString n)).length ≤ k := by
  rw [ascii_toString, List.length_map]
  exact (Nat.length_toDigits_le_iff (by decide) hk).mpr h

theorem metaName_eq (tid : ℕ) (seq : UInt64) : metaName tid seq =
    ascii "m_" ++ (ascii (toString tid) ++ 95 :: ascii (toString seq.toNat)) := by
  unfold metaName
  rw [ascii_append, ascii_append, ascii_append, List.append_assoc, List.append_assoc]
  rfl

/-- The names that belong to a thread. -/
def Workload.Own : Workload → ℕ → Bytes → Prop
  | .seqread, _, _ | .randread, _, _ | .mixed, _, _ => False
  | .seqwrite, tid, n => n = ascii ("bench_write_" ++ toString tid)
  | .randwrite, tid, n => n = ascii ("bench_rw_" ++ toString tid)
  | .meta_, tid, n => ∃ seq, n = metaName tid seq

/-- No two threads have a name in common. -/
theorem Workload.own_unique {wl : Workload} {i j : ℕ} {n : Bytes} (hi : wl.Own i n) (hj : wl.Own j n) :
    i = j := by
  cases wl with
  | seqread | randread | mixed => exact hi.elim
  | seqwrite | randwrite =>
    have hnames := Eq.trans (Eq.symm hi) hj
    rw [ascii_append, ascii_append] at hnames
    exact ascii_toString_injective (List.append_cancel_left hnames)
  | meta_ =>
    obtain ⟨seq, rfl⟩ := hi
    obtain ⟨seq', hnames⟩ := hj
    rw [metaName_eq, metaName_eq] at hnames
    -- the underscore ends the number of the thread
    have hsplit := (List.append_cons_inj_of_notMem (underscore_notMem i) (underscore_notMem _)).mp
      (List.append_cancel_left hnames)
    exact ascii_toString_injective hsplit.1

/-- No name is long. -/
theorem Workload.length_own_le {wl : Workload} {tid : ℕ} (htid : tid < 2 ^ 31) {n : Bytes}
    (h : wl.Own tid n) : n.length ≤ 64 := by
  have hdigits : (ascii (toString tid)).length ≤ 10 :=
    length_ascii_toString (by decide) (htid.trans (by decide))
  cases wl with
  | seqread | randread | mixed => exact h.elim
  | seqwrite | randwrite =>
    rw [show n = _ from h, ascii_append, List.length_append]
    have hprefix : (ascii "bench_write_").length = 12 ∧ (ascii "bench_rw_").length = 9 := by decide
    omega
  | meta_ =>
    obtain ⟨seq, rfl⟩ := h
    have hseq : (ascii (toString seq.toNat)).length ≤ 20 :=
      length_ascii_toString (by decide) (seq.toNat_lt.trans (by decide))
    have hprefix : (ascii "m_").length = 2 := by decide
    rw [metaName_eq, List.length_append, List.length_append, List.length_cons]
    omega

/-! ### The calls fit a record -/

theorem opaqueSize_le (n : ℕ) : opaqueSize n ≤ n + 7 := by
  unfold opaqueSize padLen
  omega

theorem headerSize_root : headerSize (some rootAuth) = 72 := by decide

section Room

variable {dir fh : Fh3} {n : Bytes}

theorem hasRoom_lookup (hdir : dir.data.length ≤ 64) (hn : n.length ≤ 64) :
    (Call.lookup dir n).HasRoom (some rootAuth) := by
  show headerSize (some rootAuth) + (opaqueSize dir.data.length + opaqueSize n.length) < 2 ^ 31
  have hdir' := opaqueSize_le dir.data.length
  have hn' := opaqueSize_le n.length
  rw [headerSize_root]
  omega

theorem hasRoom_remove (hdir : dir.data.length ≤ 64) (hn : n.length ≤ 64) :
    (Call.remove dir n).HasRoom (some rootAuth) := hasRoom_lookup hdir hn

theorem hasRoom_create (mode : CreateMode3) (hmode : mode ≠ .EXCLUSIVE) (hdir : dir.data.length ≤ 64)
    (hn : n.length ≤ 64) : (Call.create dir n mode hmode {}).HasRoom (some rootAuth) := by
  have hdir' := opaqueSize_le dir.data.length
  have hn' := opaqueSize_le n.length
  have hsize : headerSize (some rootAuth) +
      (opaqueSize dir.data.length + (opaqueSize n.length + 28)) < 2 ^ 31 := by
    rw [headerSize_root]
    omega
  cases mode with
  | UNCHECKED | GUARDED => exact hsize
  | EXCLUSIVE => exact absurd rfl hmode

theorem hasRoom_setSize (hfh : fh.data.length ≤ 64) (size : UInt64) :
    (Call.setattr fh { set_size := true, size } {}).HasRoom (some rootAuth) := by
  show headerSize (some rootAuth) + (opaqueSize fh.data.length + (32 + 4)) < 2 ^ 31
  have hfh' := opaqueSize_le fh.data.length
  rw [headerSize_root]
  omega

theorem hasRoom_read (hfh : fh.data.length ≤ 64) (offset : UInt64) (count : UInt32) :
    (Call.read fh offset count).HasRoom (some rootAuth) := by
  show headerSize (some rootAuth) + (opaqueSize fh.data.length + 12) < 2 ^ 31
  have hfh' := opaqueSize_le fh.data.length
  rw [headerSize_root]
  omega

theorem hasRoom_write {data : Bytes} (hfh : fh.data.length ≤ 64) (hdata : data.length + 256 ≤ 2 ^ 31)
    (offset : UInt64) (stable : Stable3) : (Call.write fh offset stable data).HasRoom (some rootAuth) := by
  show headerSize (some rootAuth) +
    (opaqueSize fh.data.length + (8 + (4 + (4 + opaqueSize data.length)))) < 2 ^ 31
  have hfh' := opaqueSize_le fh.data.length
  have hdata' := opaqueSize_le data.length
  rw [headerSize_root]
  omega

end Room

/-! ### One thread -/

section Thread

variable {N : ℕ} {wl : Workload} {cfg : BenchConfig} {workdir fh : Fh3} {τ σ : Type} {srv : Service τ}
  {fs : FileServer σ} {abs : τ → σ} {files : σ → Files} {v : Files} {i : Fin N} {t : τ} {n : Bytes}

/-- The names of each thread. -/
def Workload.names (wl : Workload) (N : ℕ) (i : Fin N) (n : Bytes) : Prop := wl.Own i n

theorem Workload.names_untouched (i : Fin N) (n : Bytes) (hi : wl.names N i n) :
    Untouched (wl.names N) i n :=
  fun _ hj h => hj (Fin.ext (own_unique h hi))

variable (wl) in
/-- The discipline of the threads. -/
abbrev threads (N : ℕ) (h : OnTheWire srv fs abs) (hexp : Exports fs workdir files) :
    Discipline (Fin N) (AnsweredAtOnce srv) :=
  ownNames h hexp (wl.names_untouched (N := N))

variable {h : OnTheWire srv fs abs} {hexp : Exports fs workdir files}

/-- A turn comes to an end without an exception, and the thread sees what it saw before. -/
def TurnsOver (own : Fin N → Bytes → Prop) (i : Fin N) (files : σ → Files) (abs : τ → σ) (v : Files)
    {α : Type} (r : Except Exn α) (nfs : NFSClient) (t : τ) : Prop :=
  (∃ a, r = .ok a) ∧ Sees own i (files (abs t)) v nfs

/-- What a thread sees of a file that it reads and writes. -/
structure Opened (own : Fin N → Bytes → Prop) (i : Fin N) (v : Files) (fh : Fh3) : Prop where
  there : ∃ n, Untouched own i n ∧ v n = some fh
  short : fh.data.length ≤ 64

section Turns

variable {nfs : NFSClient} (hopened : Opened (wl.names N) i v fh)
  (hsees : Sees (wl.names N) i (files (abs t)) v nfs)
include hopened hsees

theorem holdsM_readOn (offset : UInt64) (turn : Turn) :
    HoldsM (threads wl N h hexp) i (TurnsOver (wl.names N) i files abs v) (readOn cfg fh offset turn) nfs
      t := by
  obtain ⟨n, hn, hfh⟩ := hopened.there
  refine twpM_bind.mpr (holdsM_read hsees (hasRoom_read hopened.short _ _) hn hfh ?_)
  exact fun data nfs' t' hsees' => ⟨⟨_, rfl⟩, hsees'⟩

theorem holdsM_readBlock (turn : Turn) :
    HoldsM (threads wl N h hexp) i (TurnsOver (wl.names N) i files abs v) (readBlock cfg fh turn) nfs
      t := by
  obtain ⟨n, hn, hfh⟩ := hopened.there
  refine twpM_bind.mpr (holdsM_read hsees (hasRoom_read hopened.short _ _) hn hfh ?_)
  exact fun data nfs' t' hsees' => ⟨⟨_, rfl⟩, hsees'⟩

theorem holdsM_writeOn {buf : Bytes} (hbuf : buf.length + 256 ≤ 2 ^ 31) (offset : UInt64)
    (turn : Turn) : HoldsM (threads wl N h hexp) i (TurnsOver (wl.names N) i files abs v)
      (writeOn cfg fh buf offset turn) nfs t := by
  obtain ⟨n, hn, hfh⟩ := hopened.there
  refine twpM_bind.mpr (holdsM_write hsees (hasRoom_write hopened.short hbuf _ _) hn hfh ?_)
  exact fun result nfs' t' hsees' => ⟨⟨_, rfl⟩, hsees'⟩

theorem holdsM_writeBlock {buf : Bytes} (hbuf : buf.length + 256 ≤ 2 ^ 31) (turn : Turn) :
    HoldsM (threads wl N h hexp) i (TurnsOver (wl.names N) i files abs v) (writeBlock cfg fh buf turn) nfs
      t := by
  obtain ⟨n, hn, hfh⟩ := hopened.there
  refine twpM_bind.mpr (holdsM_write hsees (hasRoom_write hopened.short hbuf _ _) hn hfh ?_)
  exact fun result nfs' t' hsees' => ⟨⟨_, rfl⟩, hsees'⟩

end Turns

/-- A name that the thread has to itself. -/
theorem length_names_le (hN : N < 2 ^ 31) (hn : wl.names N i n) : n.length ≤ 64 :=
  wl.length_own_le (i.isLt.trans hN) hn

/-- A file is gone again, and the directory is what it was. -/
theorem update_none (hv : v n = none) (fh : Fh3) :
    Function.update (Function.update v n (some fh)) n none = v := by
  rw [Function.update_idem, ← hv, Function.update_eq_self]

theorem opened_created (hn : wl.names N i n) (hfh : fh.data.length ≤ 64) :
    Opened (wl.names N) i (Function.update v n (some fh)) fh :=
  ⟨⟨n, wl.names_untouched i n hn, Function.update_self ..⟩, hfh⟩

theorem holdsM_createRemove {nfs : NFSClient} (hN : N < 2 ^ 31) (hworkdir : workdir.data.length ≤ 64)
    (habsent : ∀ n, Workload.meta_.names N i n → v n = none)
    (hsees : Sees (Workload.meta_.names N) i (files (abs t)) v nfs) (seq : UInt64) (turn : Turn) :
    HoldsM (threads .meta_ N h hexp) i (TurnsOver (Workload.meta_.names N) i files abs v)
      (createRemove workdir i seq turn) nfs t := by
  have hn : Workload.meta_.names N i (metaName i seq) := ⟨seq, rfl⟩
  have hlen := length_names_le hN hn
  have hroom := hasRoom_create .GUARDED CreateMode3.noConfusion hworkdir hlen
  refine twpM_bind.mpr (holdsM_create .GUARDED CreateMode3.noConfusion hsees hroom hn
    (fun _ => habsent _ hn) fun fh nfs' t' _ hsees' => ?_)
  have hthere : Function.update v (metaName i seq) (some fh) (metaName i seq) ≠ none := by
    rw [Function.update_self]
    exact Option.some_ne_none fh
  refine twpM_bind.mpr (holdsM_remove hsees' (hasRoom_remove hworkdir hlen) hn hthere
    fun nfs'' t'' hsees'' => ?_)
  rw [update_none (habsent _ hn)] at hsees''
  exact ⟨⟨_, rfl⟩, hsees''⟩

/-- The run of a thread comes to an end without an exception. Its turns are counted, and it sees what it
saw before. -/
def RunsOver (own : Fin N → Bytes → Prop) (i : Fin N) (files : σ → Files) (abs : τ → σ) (v : Files)
    (w : Worker) (turns : List Turn) (r : Except Exn Unit) (w' : Worker) (t : τ) : Prop :=
  r = .ok () ∧ Tallied w turns w' ∧ Sees own i (files (abs t)) v w'.client

section Runs

variable {w w' : Worker} {turns : List Turn}

theorem holdsM_loopFrom {β : Type} {io : β → Turn → ClientM NFSClient (UInt64 × β)}
    (hio : ∀ x turn nfs t, Sees (wl.names N) i (files (abs t)) v nfs →
      HoldsM (threads wl N h hexp) i (TurnsOver (wl.names N) i files abs v) (io x turn) nfs t)
    (hsees : Sees (wl.names N) i (files (abs t)) v w.client) (x : β) :
    HoldsM (threads wl N h hexp) i (RunsOver (wl.names N) i files abs v w turns)
      (loopFrom io x turns) w t := by
  refine twpM_mono ?_ (twpM_loopFrom (I := fun _ _ _ nfs t => Sees (wl.names N) i (files (abs t)) v nfs)
    (fun _ x turn _ nfs t hsees => twpM_mono ?_ (hio x turn nfs t hsees)) turns 0 x w t hsees)
  · rintro r w' t' ⟨hr, htallied, -, hsees'⟩
    exact ⟨hr, htallied, hsees'⟩
  · rintro r nfs' t' ⟨⟨n, hn⟩, hsees'⟩
    exact ⟨n, hn, hsees'⟩

theorem holdsM_loop {io : Turn → ClientM NFSClient UInt64}
    (hio : ∀ turn nfs t, Sees (wl.names N) i (files (abs t)) v nfs →
      HoldsM (threads wl N h hexp) i (TurnsOver (wl.names N) i files abs v) (io turn) nfs t)
    (hsees : Sees (wl.names N) i (files (abs t)) v w.client) :
    HoldsM (threads wl N h hexp) i (RunsOver (wl.names N) i files abs v w turns) (loop io turns) w t := by
  rw [loop_eq]
  refine holdsM_loopFrom (fun _ turn nfs t hsees => ?_) hsees ()
  refine twpM_bind.mpr (twpM_mono ?_ (hio turn nfs t hsees))
  rintro _ nfs' t' ⟨⟨n, rfl⟩, hsees'⟩
  exact ⟨⟨_, rfl⟩, hsees'⟩

/-- The end of a thread that has created a file of its own. -/
theorem holdsM_thenRemove {m : ClientM Worker Unit} (hN : N < 2 ^ 31) (hworkdir : workdir.data.length ≤ 64)
    (hn : wl.names N i n) (hv : v n = none)
    (hm : HoldsM (threads wl N h hexp) i
      (RunsOver (wl.names N) i files abs (Function.update v n (some fh)) w turns) m w' t) :
    HoldsM (threads wl N h hexp) i (RunsOver (wl.names N) i files abs v w turns)
      (m >>= fun _ => onClient (call (.remove workdir n))) w' t := by
  have hthere : Function.update v n (some fh) n ≠ none := by
    rw [Function.update_self]
    exact Option.some_ne_none fh
  refine twpM_bind.mpr (twpM_mono ?_ hm)
  rintro _ w'' t' ⟨rfl, htallied, hsees⟩
  refine twpM_onMember.mpr (holdsM_remove hsees (hasRoom_remove hworkdir (length_names_le hN hn)) hn
    hthere fun nfs t'' hsees' => ?_)
  rw [update_none hv] at hsees'
  exact ⟨rfl, htallied, hsees'⟩

/-- What the threads find: their own names are not in use, and the file that the setup makes is there. -/
structure Workload.Ready (wl : Workload) (N : ℕ) (v : Files) : Prop where
  absent : ∀ (i : Fin N) n, wl.names N i n → v n = none
  present : wl.setup.isSome → ∃ fh, v BENCH_FILE = some fh ∧ fh.data.length ≤ 64

theorem length_replicate_le (hbs : cfg.bs.toNat + 256 ≤ 2 ^ 31) (b : UInt8) :
    (List.replicate cfg.bs.toNat b).length + 256 ≤ 2 ^ 31 := by
  rw [List.length_replicate]
  exact hbs

/-- A thread that works on the file of the setup. -/
theorem holdsM_onBenchFile (hworkdir : workdir.data.length ≤ 64) (hready : wl.Ready N v)
    (hsetup : wl.setup.isSome) (hshared : ∀ j, ¬ wl.names N j BENCH_FILE)
    (hsees : Sees (wl.names N) i (files (abs t)) v w.client) {body : Fh3 → ClientM Worker Unit}
    (hbody : ∀ fh nfs t, Opened (wl.names N) i v fh → Sees (wl.names N) i (files (abs t)) v nfs →
      HoldsM (threads wl N h hexp) i (RunsOver (wl.names N) i files abs v w turns) (body fh)
        ⟨nfs, w.res, w.ops, w.bytes⟩ t) :
    HoldsM (threads wl N h hexp) i (RunsOver (wl.names N) i files abs v w turns)
      (onClient (call (.lookup workdir BENCH_FILE)) >>= body) w t := by
  obtain ⟨fh, hfh, hshort⟩ := hready.present hsetup
  have huntouched : Untouched (wl.names N) i BENCH_FILE := fun j _ => hshared j
  exact twpM_bind.mpr (twpM_onMember.mpr (holdsM_lookup hsees (hasRoom_lookup hworkdir (by decide))
    huntouched hfh fun nfs t hsees => hbody fh nfs t ⟨⟨_, huntouched, hfh⟩, hshort⟩ hsees))

/-- A thread that works on a file of its own. -/
theorem holdsM_onOwnFile (hN : N < 2 ^ 31) (hworkdir : workdir.data.length ≤ 64) (hn : wl.names N i n)
    (hsees : Sees (wl.names N) i (files (abs t)) v w.client) {body : Fh3 → ClientM Worker Unit}
    (hbody : ∀ fh nfs t, Opened (wl.names N) i (Function.update v n (some fh)) fh →
      Sees (wl.names N) i (files (abs t)) (Function.update v n (some fh)) nfs →
        HoldsM (threads wl N h hexp) i (RunsOver (wl.names N) i files abs v w turns) (body fh)
          ⟨nfs, w.res, w.ops, w.bytes⟩ t) :
    HoldsM (threads wl N h hexp) i (RunsOver (wl.names N) i files abs v w turns)
      (onClient (NFSClient.create workdir n .UNCHECKED {}) >>= body) w t := by
  have hroom := hasRoom_create .UNCHECKED CreateMode3.noConfusion hworkdir (length_names_le hN hn)
  exact twpM_bind.mpr (twpM_onMember.mpr (holdsM_create .UNCHECKED CreateMode3.noConfusion hsees hroom hn
    (fun hmode => CreateMode3.noConfusion hmode) fun fh nfs t hshort hsees =>
      hbody fh nfs t (opened_created hn hshort) hsees))

/-- **One thread.** Whatever the others do meanwhile, none of its calls is refused. -/
theorem holdsM_run (hN : N < 2 ^ 31) (hworkdir : workdir.data.length ≤ 64)
    (hbs : cfg.bs.toNat + 256 ≤ 2 ^ 31) (hready : wl.Ready N v)
    (hsees : Sees (wl.names N) i (files (abs t)) v w.client) :
    HoldsM (threads wl N h hexp) i (RunsOver (wl.names N) i files abs v w turns)
      (wl.run workdir cfg i turns) w t := by
  cases wl with
  | seqread =>
    refine holdsM_onBenchFile hworkdir hready rfl (fun _ => id) hsees fun fh nfs t hopened hsees => ?_
    exact holdsM_loopFrom (w := ⟨nfs, w.res, w.ops, w.bytes⟩)
      (fun offset turn _ _ hsees => holdsM_readOn hopened hsees offset turn) hsees 0
  | randread =>
    refine holdsM_onBenchFile hworkdir hready rfl (fun _ => id) hsees fun fh nfs t hopened hsees => ?_
    exact holdsM_loop (w := ⟨nfs, w.res, w.ops, w.bytes⟩)
      (fun turn _ _ hsees => holdsM_readBlock hopened hsees turn) hsees
  | mixed =>
    refine holdsM_onBenchFile hworkdir hready rfl (fun _ => id) hsees fun fh nfs t hopened hsees => ?_
    refine holdsM_loop (w := ⟨nfs, w.res, w.ops, w.bytes⟩) (fun turn _ _ hsees => ?_) hsees
    by_cases hreads : turn.reads
    · rw [if_pos hreads]
      exact holdsM_readBlock hopened hsees turn
    · rw [if_neg hreads]
      exact holdsM_writeBlock hopened hsees (length_replicate_le hbs _) turn
  | seqwrite =>
    have hn : Workload.seqwrite.names N i (ascii ("bench_write_" ++ toString i.val)) := rfl
    refine holdsM_onOwnFile hN hworkdir hn hsees fun fh nfs t hopened hsees => ?_
    exact holdsM_thenRemove hN hworkdir hn (hready.absent i _ hn)
      (holdsM_loopFrom (w := ⟨nfs, w.res, w.ops, w.bytes⟩) (fun offset turn _ _ hsees =>
        holdsM_writeOn hopened hsees (length_replicate_le hbs 0xBC) offset turn) hsees 0)
  | randwrite =>
    have hn : Workload.randwrite.names N i (ascii ("bench_rw_" ++ toString i.val)) := rfl
    refine holdsM_onOwnFile hN hworkdir hn hsees fun fh nfs t hopened hsees => ?_
    -- the file is extended before the loop
    obtain ⟨m, hm, hfh⟩ := hopened.there
    refine twpM_bind.mpr (twpM_onMember.mpr (holdsM_setSize hsees (hasRoom_setSize hopened.short _) hm hfh
      fun nfs t hsees => ?_))
    exact holdsM_thenRemove hN hworkdir hn (hready.absent i _ hn)
      (holdsM_loop (w := ⟨nfs, w.res, w.ops, w.bytes⟩) (fun turn _ _ hsees =>
        holdsM_writeBlock hopened hsees (length_replicate_le hbs 0xDE) turn) hsees)
  | meta_ =>
    exact holdsM_loopFrom (fun seq turn _ _ hsees =>
      holdsM_createRemove hN hworkdir (hready.absent i) hsees seq turn) hsees 0

/-- What a thread hands back, if it began with `v` in the directory. -/
structure Ended (own : Fin N → Bytes → Prop) (i : Fin N) (files : σ → Files) (abs : τ → σ) (v : Files)
    (turns : List Turn) (x : Option Exn × Worker) (t : τ) : Prop where
  no_error : x.1 = none
  samples : x.2.res.samples_ = turns.map Turn.elapsed
  ops : x.2.ops = UInt64.ofNat turns.length
  sees : Sees own i (files (abs t)) v x.2.client

theorem stable_ended (v : Files) :
    (threads wl N h hexp).Stable i (Ended (wl.names N) i files abs v turns) :=
  fun _ _ _ _ hj hguar hended => { hended with sees := hended.sees.other hj hguar }

theorem holds_worker (hN : N < 2 ^ 31) (hworkdir : workdir.data.length ≤ 64)
    (hbs : cfg.bs.toNat + 256 ≤ 2 ^ 31) (hready : wl.Ready N (files (abs t))) (port : UInt16) :
    (threads wl N h hexp).Holds i (Ended (wl.names N) i files abs (files (abs t)) turns)
      (worker wl workdir cfg i turns ⟨TcpRpcClient.connect port⟩) t := by
  have hsees : Sees (wl.names N) i (files (abs t)) (files (abs t))
      ⟨(TcpRpcClient.connect port).setAuthSys rootAuth⟩ := ⟨rfl, fun _ _ => rfl⟩
  have hrun : HoldsM (threads wl N h hexp) i (RunsOver (wl.names N) i files abs (files (abs t)) _ turns)
      (wl.run workdir cfg i turns) ⟨⟨(TcpRpcClient.connect port).setAuthSys rootAuth⟩, {}, 0, 0⟩ t :=
    holdsM_run hN hworkdir hbs hready hsees
  refine twp_bind.mpr (twp_mono ?_ hrun)
  rintro ⟨_, w⟩ t' ⟨rfl, ⟨hsamples, hops⟩, hsees'⟩
  exact ⟨rfl, hsamples, hops.trans (UInt64.zero_add _), hsees'⟩

end Runs

end Thread

/-! ### All threads -/

/-- The threads of a run that have all ended, and what is made of them. -/
theorem runResult_eq {N : ℕ} {threads : Fin N → Worker} {turns : Fin N → List Turn}
    (hsamples : ∀ i, (threads i).res.samples_ = (turns i).map Turn.elapsed)
    (hops : ∀ i, (threads i).ops = UInt64.ofNat (turns i).length) :
    let all := (List.ofFn turns).flatten
    (runResult (List.ofFn threads)).total_ops = UInt64.ofNat all.length ∧
      (runResult (List.ofFn threads)).lat = (Reservoir.ofPushes (all.map Turn.elapsed)).compute.1 := by
  intro all
  constructor
  · have hsum : ∀ (l : List (List Turn)) (total : UInt64),
        (l.map fun ts => UInt64.ofNat ts.length).foldl (fun total n => total + n) total =
          total + UInt64.ofNat l.flatten.length := by
      intro l
      induction l with
      | nil => exact fun total => (UInt64.add_zero total).symm
      | cons ts l ih =>
        intro total
        rw [List.map_cons, List.foldl_cons, ih, List.flatten_cons, List.length_append, UInt64.ofNat_add,
          UInt64.add_assoc]
    have hmap : (List.ofFn threads).map Worker.ops =
        (List.ofFn turns).map fun ts => UInt64.ofNat ts.length := by
      rw [List.map_ofFn, List.map_ofFn]
      exact congrArg _ (funext hops)
    have hfold := hsum (List.ofFn turns) 0
    rw [← hmap, List.foldl_map, UInt64.zero_add] at hfold
    exact hfold
  · have hres : (List.ofFn threads).map Worker.res =
        ((List.ofFn turns).map fun ts => ts.map Turn.elapsed).map Reservoir.ofPushes := by
      rw [List.map_ofFn, List.map_map, List.map_ofFn]
      refine congrArg _ (funext fun i => ?_)
      show (threads i).res = Reservoir.ofPushes ((turns i).map Turn.elapsed)
      have hpushes := (hsamples i).trans (Reservoir.samples_ofPushes _).symm
      exact congrArg Reservoir.mk hpushes
    have hmerged := Reservoir.merged_mergeAll ((List.ofFn threads).map Worker.res)
    rw [hres] at hmerged
    refine Reservoir.compute_congr ?_
    rw [Reservoir.samples_ofPushes, List.map_flatten]
    rw [hres]
    exact hmerged.samples_perm

/-- The threads of a run, each with a newly connected client. -/
def threadProgs {N : ℕ} (wl : Workload) (workdir : Fh3) (cfg : BenchConfig) (turns : Fin N → List Turn)
    (port : Fin N → UInt16) (i : Fin N) : Prog RpcRequest Received (Option Exn × Worker) :=
  worker wl workdir cfg i (turns i) ⟨TcpRpcClient.connect (port i)⟩

/-- They all begin. -/
def startThreads {τ : Type} {N : ℕ} (fuel : ℕ) (wl : Workload) (workdir : Fh3) (cfg : BenchConfig)
    (turns : Fin N → List Turn) (port : Fin N → UInt16) (t : τ) :
    Clients (Fin N) τ (Option Exn × Worker) :=
  .start fuel (threadProgs wl workdir cfg turns port) t

section

variable {τ σ : Type} {srv : Service τ} {fs : FileServer σ} {abs : τ → σ} {h : OnTheWire srv fs abs}
  {workdir : Fh3} {files : σ → Files} {hexp : Exports fs workdir files} {wl : Workload} {N : ℕ} {t t' : τ}

/-- What belongs to no thread stays as it is. -/
theorem files_outside {n : Bytes} (hn : ∀ i, ¬ wl.names N i n)
    (hguar : Relation.ReflTransGen (fun t t' => ∃ i, (threads wl N h hexp).guar i t t') t t') :
    files (abs t') n = files (abs t) n := by
  induction hguar with
  | refl => rfl
  | tail _ hstep ih =>
    obtain ⟨i, hguar⟩ := hstep
    exact (hguar n (hn i)).trans ih

/-- When every thread has ended, the names of each are gone again. -/
theorem files_restored {turns : Fin N → List Turn} {x : Fin N → Option Exn × Worker}
    (hguar : Relation.ReflTransGen (fun t t' => ∃ i, (threads wl N h hexp).guar i t t') t t')
    (hended : ∀ i, Ended (wl.names N) i files abs (files (abs t)) (turns i) (x i) t') :
    files (abs t') = files (abs t) := by
  funext n
  by_cases hown : ∃ i, wl.names N i n
  · obtain ⟨i, hi⟩ := hown
    exact (hended i).sees.agrees n (wl.names_untouched i n hi)
  · exact files_outside (fun i hi => hown ⟨i, hi⟩) hguar

variable {cfg : BenchConfig} {turns : Fin N → List Turn} {port : Fin N → UInt16}

/-- What is asked of a run of threads: the handle of the directory and a block fit into a WRITE, the
number of a thread is an `int`, and the threads find what they need. -/
structure MayRun (wl : Workload) (workdir : Fh3) (cfg : BenchConfig) (N : ℕ) (v : Files) : Prop where
  workdir_short : workdir.data.length ≤ 64
  block_fits : cfg.bs.toNat + 256 ≤ 2 ^ 31
  threads_lt : N < 2 ^ 31
  ready : wl.Ready N v

theorem MayRun.holds (h : OnTheWire srv fs abs) (hexp : Exports fs workdir files)
    (hrun : MayRun wl workdir cfg N (files (abs t))) (i : Fin N) :
    (threads wl N h hexp).Holds i (Ended (wl.names N) i files abs (files (abs t)) (turns i))
      (threadProgs wl workdir cfg turns port i) t :=
  holds_worker hrun.threads_lt hrun.workdir_short hrun.block_fits hrun.ready (port i)

theorem MayRun.asks (h : OnTheWire srv fs abs) (hexp : Exports fs workdir files)
    (hrun : MayRun wl workdir cfg N (files (abs t))) :
    AsksOnly (AnsweredAtOnce srv) RpcRequest.HasRoom (threadProgs wl workdir cfg turns port, t) := by
  refine Discipline.asksOnly (fun i t q hok => ?_) (fun i => stable_ended (files (abs t)))
    (hrun.holds h hexp)
  obtain ⟨c, rpc, rfl, hauth, hroom, -⟩ := hok
  exact Call.HasRoom.message (hauth ▸ hroom)

/-- Where the threads have got to after any system calls. -/
structure Reached (wl : Workload) (files : σ → Files) (abs : τ → σ) (v : Files)
    (turns : Fin N → List Turn) (w : Clients (Fin N) τ (Option Exn × Worker)) : Prop where
  not_cut : ∀ i, w.progs i ≠ .cut
  ended : ∀ i x, w.progs i = .done x → Ended (wl.names N) i files abs v (turns i) x w.server
  restored : (∀ i, ∃ x, w.progs i = .done x) → files (abs w.server) = v

theorem MayRun.reached (h : OnTheWire srv fs abs) {fuel : ℕ} (hfuel : srv.InFragments fuel)
    (hexp : Exports fs workdir files) (hrun : MayRun wl workdir cfg N (files (abs t)))
    {w : Clients (Fin N) τ (Option Exn × Worker)}
    (hreach : Relation.ReflTransGen (Clients.Step srv) (startThreads fuel wl workdir cfg turns port t) w) :
    Reached wl files abs (files (abs t)) turns w := by
  -- what the system calls come to is a run of atomic requests, where each thread is as it was verified
  obtain ⟨y, hatomic, hsim⟩ := (Clients.simulated hfuel (hrun.asks h hexp)).run hreach
  obtain ⟨hat, hguar⟩ :=
    Discipline.run_holds (fun i => stable_ended (files (abs t))) (hrun.holds h hexp) hatomic
  have hended : ∀ i x, w.progs i = .done x →
      Ended (wl.names N) i files abs (files (abs t)) (turns i) x w.server := by
    intro i x hdone
    have hi := hat i
    rw [(hsim.matches.done i x hdone).1, ← hsim.matches.server] at hi
    exact hi
  refine ⟨fun i hcut => ?_, hended, fun hdone => ?_⟩
  · have hi := hat i
    rw [hsim.matches.cut i hcut] at hi
    exact hi
  · choose x hx using hdone
    rw [← hsim.matches.server] at hguar
    exact files_restored hguar fun i => hended i _ (hx i)

end

/-- **The threads of a benchmark are independent.** Any workload in any number of threads, each with a
client of its own, on a server with a directory in which no thread finds its names in use: in every
interleaving of the system calls, whatever parts of the bytes these transfer, the run comes to an end, no
thread is stuck before it has ended, and none ends with an exception. Each thread has counted each of its
turns once. When all have ended, the totals and the latency statistics are those of all turns together,
and the directory is what it was. -/
theorem threads_are_independent {τ σ : Type} {srv : Service τ} {fs : FileServer σ} {abs : τ → σ}
    (h : OnTheWire srv fs abs) {fuel : ℕ} (hfuel : srv.InFragments fuel) {workdir : Fh3}
    {files : σ → Files} (hexp : Exports fs workdir files) (wl : Workload) (cfg : BenchConfig) {N : ℕ}
    (turns : Fin N → List Turn) (port : Fin N → UInt16) (t : τ)
    (hrun : MayRun wl workdir cfg N (files (abs t))) :
    let start := startThreads fuel wl workdir cfg turns port t
    Acc (fun w' w => Clients.Step srv w w') start ∧
    ∀ w, Relation.ReflTransGen (Clients.Step srv) start w →
      (∀ i, (∃ x, w.progs i = .done x) ∨ ∃ w', WiredStep SysStep (Handles srv) i w w') ∧
      (∀ i x, w.progs i = .done x → x.1 = none ∧ x.2.res.samples_ = (turns i).map Turn.elapsed ∧
        x.2.ops = UInt64.ofNat (turns i).length) ∧
      ∀ threads : Fin N → Option Exn × Worker, (∀ i, w.progs i = .done (threads i)) →
        files (abs w.server) = files (abs t) ∧
        let all := (List.ofFn turns).flatten
        let result := runResult (List.ofFn fun i => (threads i).2)
        result.total_ops = UInt64.ofNat all.length ∧
          result.lat = (Reservoir.ofPushes (all.map Turn.elapsed)).compute.1 := by
  intro start
  refine ⟨Clients.terminates hfuel (hrun.asks h hexp), fun w hreach => ?_⟩
  have hreached := hrun.reached h hfuel hexp hreach
  refine ⟨fun i => ?_, fun i x hdone => ?_, fun threads hdone => ⟨?_, ?_⟩⟩
  · rcases Clients.live hfuel (hrun.asks h hexp) hreach i with hdone | hcut | hstep
    · exact Or.inl hdone
    · exact absurd hcut (hreached.not_cut i)
    · exact Or.inr hstep
  · have hx := hreached.ended i x hdone
    exact ⟨hx.no_error, hx.samples, hx.ops⟩
  · exact hreached.restored fun i => ⟨_, hdone i⟩
  · exact runResult_eq (fun i => (hreached.ended i _ (hdone i)).samples)
      fun i => (hreached.ended i _ (hdone i)).ops

/-! ### Two threads -/

theorem take_fits (n : Bytes) : (n.take 64).length < 2 ^ 32 :=
  (List.length_take_le 64 n).trans_lt (by decide)

theorem created_fits (n : Bytes) :
    Proc.CREATE.okFormat.Fits (some (n.take 64), none, none, none) := by
  refine ⟨?_, fits_postOpAttr none, fits_wccData (none, none)⟩
  rintro _ ⟨⟩
  exact take_fits n

/-- The status of a procedure that is not there. -/
theorem notSupp_ne_zero : (10004 : UInt32) ≠ 0 := by decide

/-- A file server with one directory. The handle of a file is its name, as far as that fits into a handle,
and a file has no contents. -/
def oneDirectory : FileServer (Bytes → Bool)
  | _, .LOOKUP, (_, n), s =>
    (if s n then .ok ⟨(n.take 64, none, none), take_fits n, fits_postOpAttr none, fits_postOpAttr none⟩
      else .error ⟨2, by decide, none⟩, s)
  | _, .CREATE, (_, n, how), s =>
    if how.1 = .GUARDED ∧ s n then (.error ⟨17, by decide, (none, none)⟩, s)
    else (.ok ⟨(some (n.take 64), none, none, none), created_fits n⟩, Function.update s n true)
  | _, .REMOVE, (_, n), s =>
    if s n then (.ok ⟨(none, none), fits_wccData _⟩, Function.update s n false)
    else (.error ⟨2, by decide, (none, none)⟩, s)
  | _, .SETATTR, _, s => (.ok ⟨(none, none), fits_wccData _⟩, s)
  | _, .READ, _, s => (.ok ⟨(none, 0, true, []), fits_postOpAttr _, trivial, trivial, Nat.two_pow_pos 32⟩, s)
  | _, .WRITE, (_, _, _, stable, data), s =>
    (.ok ⟨((none, none), UInt32.ofNat data.length, stable, Octets.zero 8),
      fits_wccData _, trivial, trivial, trivial⟩, s)
  | _, p, _, s => (.error ⟨10004, notSupp_ne_zero, p.emptyBody⟩, s)

/-- The names in the directory. -/
def directoryNames (s : Bytes → Bool) : Files := fun n => if s n then some ⟨n.take 64⟩ else none

theorem directoryNames_some {s : Bytes → Bool} {n : Bytes} {fh : Fh3} (h : directoryNames s n = some fh) :
    s n = true ∧ fh = ⟨n.take 64⟩ := by
  unfold directoryNames at h
  split at h
  · next hn => exact ⟨hn, (Option.some.inj h).symm⟩
  · cases h

theorem directoryNames_update (s : Bytes → Bool) (n : Bytes) (b : Bool) :
    directoryNames (Function.update s n b) =
      Function.update (directoryNames s) n (if b then some ⟨n.take 64⟩ else none) := by
  funext m
  unfold directoryNames
  by_cases hm : m = n
  · subst hm
    rw [Function.update_self, Function.update_self]
  · rw [Function.update_of_ne hm, Function.update_of_ne hm]

theorem oneDirectory_exports (workdir : Fh3) : Exports oneDirectory workdir directoryNames where
  handle_short h := by
    rw [(directoryNames_some h).2]
    exact List.length_take_le ..
  lookup {s n fh} h := by
    obtain ⟨hn, rfl⟩ := directoryNames_some h
    have hserve : oneDirectory (some rootAuth) .LOOKUP (workdir.data, n) s =
        (.ok ⟨(n.take 64, none, none), take_fits n, fits_postOpAttr none, fits_postOpAttr none⟩, s) := by
      simp only [oneDirectory, if_pos hn]
    rw [asRoot_eq (c := .lookup workdir n) hserve]
    exact ⟨rfl, rfl⟩
  create {s n} mode hmode h := by
    have hnew : mode = .GUARDED → s n ≠ true := by
      intro hguarded hn
      have hnone := h hguarded
      unfold directoryNames at hnone
      rw [if_pos hn] at hnone
      cases hnone
    have hserve : ∀ how : (m : CreateMode3) × CreateArm m, how.1 = mode →
        oneDirectory (some rootAuth) .CREATE (workdir.data, n, how) s =
          (.ok ⟨(some (n.take 64), none, none, none), created_fits n⟩, Function.update s n true) := by
      intro how hhow
      simp only [oneDirectory]
      rw [if_neg fun hrefused => hnew (hhow ▸ hrefused.1) hrefused.2]
    have hupdate := directoryNames_update s n true
    refine ⟨⟨n.take 64⟩, ?_⟩
    cases mode with
    | UNCHECKED =>
      have heq := asRoot_eq (c := .create workdir n .UNCHECKED hmode {})
        (hserve ⟨.UNCHECKED, Sattr3.wire {}⟩ rfl)
      rw [heq]
      exact ⟨rfl, hupdate⟩
    | GUARDED =>
      have heq := asRoot_eq (c := .create workdir n .GUARDED hmode {})
        (hserve ⟨.GUARDED, Sattr3.wire {}⟩ rfl)
      rw [heq]
      exact ⟨rfl, hupdate⟩
    | EXCLUSIVE => exact absurd rfl hmode
  setSize _ _ := ⟨rfl, rfl⟩
  read _ _ _ := ⟨⟨[], rfl⟩, rfl⟩
  write _ _ _ _ := ⟨⟨_, rfl⟩, rfl⟩
  remove {s n} h := by
    have hn : s n = true := by
      by_contra hn
      unfold directoryNames at h
      rw [if_neg hn] at h
      exact h rfl
    have hserve : oneDirectory (some rootAuth) .REMOVE (workdir.data, n) s =
        (.ok ⟨(none, none), fits_wccData _⟩, Function.update s n false) := by
      simp only [oneDirectory, if_pos hn]
    rw [asRoot_eq (c := .remove workdir n) hserve]
    exact ⟨rfl, directoryNames_update s n false⟩

theorem length_oneDirectory (auth : Option AuthSys) (p : Proc) (a : p.Args) (s : Bytes → Bool) :
    (Proc.Res.bytes (oneDirectory auth p a s).1).length ≤ 2 ^ 30 := by
  have htake : ∀ n : Bytes, (varOpaque (n.take 64)).length ≤ 71 := by
    intro n
    have hlen : (varOpaque (n.take 64)).length = opaqueSize (n.take 64).length := length_varOpaque _
    have hsize := opaqueSize_le (n.take 64).length
    have hle := List.length_take_le 64 n
    omega
  cases p
  case LOOKUP =>
    obtain ⟨dir, n⟩ := a
    simp only [oneDirectory]
    split
    · show (word 0 ++ (varOpaque (n.take 64) ++ (word 0 ++ word 0))).length ≤ 2 ^ 30
      have hn := htake n
      simp only [List.length_append, length_word]
      omega
    · show (Proc.failBytes _ _ (Proc.emptyBody _)).length ≤ 2 ^ 30
      decide
  case CREATE =>
    obtain ⟨dir, n, how⟩ := a
    simp only [oneDirectory]
    split
    · show (Proc.failBytes _ _ (Proc.emptyBody _)).length ≤ 2 ^ 30
      decide
    · show (word 0 ++ ((word 1 ++ varOpaque (n.take 64)) ++ (word 0 ++ (word 0 ++ word 0)))).length ≤ 2 ^ 30
      have hn := htake n
      simp only [List.length_append, length_word]
      omega
  case REMOVE =>
    obtain ⟨dir, n⟩ := a
    simp only [oneDirectory]
    split
    · show (word 0 ++ (word 0 ++ word 0)).length ≤ 2 ^ 30
      decide
    · show (Proc.failBytes _ _ (Proc.emptyBody _)).length ≤ 2 ^ 30
      decide
  case WRITE =>
    show (word 0 ++ ((word 0 ++ word 0) ++ (word _ ++ (word _ ++ fixedOpaque (List.replicate 8 0))))).length
      ≤ 2 ^ 30
    simp only [List.length_append, length_word, length_fixedOpaque]
    decide
  case SETATTR =>
    show (word 0 ++ (word 0 ++ word 0)).length ≤ 2 ^ 30
    decide
  case READ =>
    show (word 0 ++ (word 0 ++ (word 0 ++ (word 1 ++ varOpaque [])))).length ≤ 2 ^ 30
    decide
  all_goals
    show (Proc.failBytes _ _ (Proc.emptyBody _)).length ≤ 2 ^ 30
    decide

theorem oneDirectory_inFragments : (wireServer oneDirectory).InFragments 1 :=
  wireServer_inFragments length_oneDirectory

/-- In an empty directory `meta` may run. -/
theorem meta_mayRun : MayRun .meta_ ⟨[1]⟩ {} 2 (directoryNames fun _ => false) where
  workdir_short := by decide
  block_fits := by decide
  threads_lt := by decide
  ready := ⟨fun _ _ _ => rfl, fun h => absurd h (by decide)⟩

/-- A turn of 1 μs. -/
def shortTurn : Turn := ⟨0, true, 1000⟩

/-- Two threads create and remove files, one of them three and the other one two. -/
theorem two_threads_independent :
    let turns : Fin 2 → List Turn := fun i => List.replicate (3 - i.val) shortTurn
    let start := startThreads 1 .meta_ ⟨[1]⟩ {} turns (fun _ => 2049) fun _ => false
    Acc (fun w' w => Clients.Step (wireServer oneDirectory) w w') start ∧
    ∀ w, Relation.ReflTransGen (Clients.Step (wireServer oneDirectory)) start w →
      (∀ i, (∃ x, w.progs i = .done x) ∨
        ∃ w', WiredStep SysStep (Handles (wireServer oneDirectory)) i w w') ∧
      (∀ i x, w.progs i = .done x → x.1 = none ∧ x.2.res.samples_ = (turns i).map Turn.elapsed ∧
        x.2.ops = UInt64.ofNat (turns i).length) ∧
      ∀ threads : Fin 2 → Option Exn × Worker, (∀ i, w.progs i = .done (threads i)) →
        directoryNames w.server = directoryNames (fun _ => false) ∧
        let all := (List.ofFn turns).flatten
        let result := runResult (List.ofFn fun i => (threads i).2)
        result.total_ops = UInt64.ofNat all.length ∧
          result.lat = (Reservoir.ofPushes (all.map Turn.elapsed)).compute.1 :=
  threads_are_independent (wireServer_onTheWire oneDirectory) oneDirectory_inFragments
    (oneDirectory_exports ⟨[1]⟩) .meta_ {} (fun i => List.replicate (3 - i.val) shortTurn)
    (fun _ => 2049) (fun _ => false) meta_mayRun

end Bench

end NfsClient
