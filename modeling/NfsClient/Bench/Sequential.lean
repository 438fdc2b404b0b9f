import NfsClient.Bench.Answers
import NfsClient.Bench.Threads
import NfsClient.Lib.Laps

/-!
# Sequential reads and writes

`seqread` and `seqwrite` go through their file block by block, and begin again at the end of it. Unlike
the setup (`fillLoop`), both go on from what a reply says was transferred. So it does not matter if the
server transfers less than it was asked for: in every lap every byte is transferred once
(`sequential_io_even`).

The file of `seqread` may be shorter than the size that the benchmark was given. Its laps end at the first
empty read then.
-/

namespace NfsClient

open Xdr Interaction Nfs3 Transfers

namespace Bench

/-! ### The server -/

/-- A file on a server: the directory that it is in, its name there, its handle, and how long it is. -/
structure ServedFile where
  workdir : Fh3
  name : Bytes
  fh : Fh3
  length : ℕ
  workdir_fits : workdir.data.length < 2 ^ 32
  name_fits : name.length < 2 ^ 32
  fh_fits : fh.data.length < 2 ^ 32

namespace ServedFile

/-- The answers of the server, and how they change the log of what was transferred. It may transfer less
than it is asked for, but a READ below the end of the file gets something. -/
inductive Gives (f : ServedFile) : Answers (List Transfer)
  | lookup {log : List Transfer} {obj_attributes dir_attributes : Option Fattr3} :
      Gives f .LOOKUP (f.workdir.data, f.name) (some (f.fh.data, obj_attributes, dir_attributes)) log log
  | create {log : List Transfer} {how : (m : CreateMode3) × CreateArm m} {attrs : Option Fattr3}
      {wcc : WccData} :
      Gives f .CREATE (f.workdir.data, f.name, how) (some (some f.fh.data, attrs, wcc)) log log
  | read {log : List Transfer} {offset : UInt64} {count got : UInt32} {attrs : Option Fattr3} {eof : Bool}
      {data : Bytes} (hle : data.length ≤ count.toNat) (hmore : offset.toNat < f.length → 0 < data.length) :
      Gives f .READ (f.fh.data, offset, count) (some (attrs, got, eof, data)) log
        (⟨offset.toNat, data.length⟩ :: log)
  | write {log : List Transfer} {offset : UInt64} {size stable count committed : UInt32} {data : Bytes}
      {wcc : WccData} {verf : Octets 8} (hle : count.toNat ≤ data.length) :
      Gives f .WRITE (f.fh.data, offset, size, stable, data) (some (wcc, count, committed, verf)) log
        (⟨offset.toNat, count.toNat⟩ :: log)
  | remove {log : List Transfer} {wcc : WccData} :
      Gives f .REMOVE (f.workdir.data, f.name) (some wcc) log log

/-- The server does what it is asked to. -/
theorem Gives.not_none {f : ServedFile} {p : Proc} {a : p.Args} {log log' : List Transfer} :
    ¬ Gives f p a none log log' := nofun

abbrev Serves (f : ServedFile) : Step RpcRequest Received (List Transfer) := Answers.Serves f.Gives

abbrev Served (f : ServedFile) : List Transfer → RpcRequest → Prop := Answers.Served f.Gives

variable {f : ServedFile} {c : Call} {nfs : NFSClient} {log : List Transfer}

theorem twpM_given {post : Except Exn c.Result → NFSClient → List Transfer → Prop} (hfits : c.Fits)
    {r : c.proc.Ok} {log₁ : List Transfer} (hgives : f.Gives c.proc c.args (some r) log log₁)
    (hr : c.proc.okFormat.Fits r)
    (hpost : ∀ r nfs log', f.Gives c.proc c.args (some r) log log' → post (c.outcome r) nfs log') :
    twpM f.Serves f.Served post (call c) nfs log :=
  Answers.twpM_call hfits (Or.inl ⟨r, log₁, hgives, hr⟩) hpost fun _ _ _ h => absurd h Gives.not_none

theorem twpM_lookup {post : Except Exn Fh3 → NFSClient → List Transfer → Prop}
    (hpost : ∀ nfs, post (.ok f.fh) nfs log) :
    twpM f.Serves f.Served post (call (.lookup f.workdir f.name)) nfs log := by
  refine twpM_given (c := .lookup f.workdir f.name) (r := (f.fh.data, none, none))
    ⟨f.workdir_fits, f.name_fits⟩ .lookup ⟨f.fh_fits, fits_postOpAttr none, fits_postOpAttr none⟩ ?_
  intro r nfs log' h
  cases h with
  | lookup => exact hpost nfs

theorem twpM_create {post : Except Exn Fh3 → NFSClient → List Transfer → Prop}
    (hpost : ∀ nfs, post (.ok f.fh) nfs log) :
    twpM f.Serves f.Served post (NFSClient.create f.workdir f.name .UNCHECKED {}) nfs log := by
  have hobj : Wire.postOpFh3.Fits (some f.fh.data) := by
    rintro data ⟨⟩
    exact f.fh_fits
  refine twpM_given (c := .create f.workdir f.name .UNCHECKED CreateMode3.noConfusion {})
    (r := (some f.fh.data, none, none, none)) ⟨f.workdir_fits, f.name_fits⟩ .create
    ⟨hobj, fits_postOpAttr none, fits_wccData (none, none)⟩ ?_
  intro r nfs log' h
  cases h with
  | create => exact hpost nfs

theorem twpM_remove {post : Except Exn Unit → NFSClient → List Transfer → Prop}
    (hpost : ∀ nfs, post (.ok ()) nfs log) :
    twpM f.Serves f.Served post (call (.remove f.workdir f.name)) nfs log := by
  refine twpM_given (c := .remove f.workdir f.name) (r := (none, none)) ⟨f.workdir_fits, f.name_fits⟩
    .remove (fits_wccData (none, none)) ?_
  intro r nfs log' h
  cases h with
  | remove => exact hpost nfs

theorem twpM_read {offset : UInt64} {count : UInt32} (hcount : 0 < count)
    {post : Except Exn Bytes → NFSClient → List Transfer → Prop}
    (hpost : ∀ data nfs, data.length ≤ count.toNat → (offset.toNat < f.length → 0 < data.length) →
      post (.ok data) nfs (⟨offset.toNat, data.length⟩ :: log)) :
    twpM f.Serves f.Served post (call (.read f.fh offset count)) nfs log := by
  have hlen : (List.replicate count.toNat (0 : UInt8)).length = count.toNat := List.length_replicate
  have hserved : f.Gives .READ (f.fh.data, offset, count)
      (some (none, count, false, List.replicate count.toNat 0)) log (⟨offset.toNat, _⟩ :: log) :=
    .read hlen.le fun _ => (UInt32.lt_iff_toNat_lt.mp hcount).trans_eq hlen.symm
  refine twpM_given (c := .read f.fh offset count) f.fh_fits hserved
    ⟨fits_postOpAttr none, trivial, trivial, hlen.trans_lt count.toNat_lt⟩ ?_
  intro r nfs log' h
  cases h with
  | read hle hmore => exact hpost _ nfs hle hmore

theorem twpM_write {offset : UInt64} {stable : Stable3} {data : Bytes} (hdata : data.length < 2 ^ 32)
    {post : Except Exn WriteResult → NFSClient → List Transfer → Prop}
    (hpost : ∀ result nfs, result.count.toNat ≤ data.length →
      post (.ok result) nfs (⟨offset.toNat, result.count.toNat⟩ :: log)) :
    twpM f.Serves f.Served post (call (.write f.fh offset stable data)) nfs log := by
  have hserved : f.Gives .WRITE (f.fh.data, offset, UInt32.ofNat data.length, stable.value, data)
      (some ((none, none), 0, 0, Octets.zero 8)) log (⟨offset.toNat, _⟩ :: log) :=
    .write (Nat.zero_le data.length)
  refine twpM_given (c := .write f.fh offset stable data) ⟨f.fh_fits, hdata⟩ hserved
    ⟨fits_wccData (none, none), trivial, trivial, trivial⟩ ?_
  intro r nfs log' h
  cases h with
  | write hle => exact hpost _ nfs hle

end ServedFile

/-! ### The loops -/

/-- Where a loop is: how many turns it has made, its offset, the bytes that it has counted since it had
`bytes₀`, and what the server has logged. -/
structure Going (bound : ℕ) (cfg : BenchConfig) (bytes₀ : UInt64) (turns : ℕ) (offset bytes : UInt64)
    (log : List Transfer) : Prop where
  laps : ∃ laps, Laps bound cfg.size.toNat log laps offset.toNat
  one_each : log.length = turns
  counted : bytes = bytes₀ + UInt64.ofNat (total log)

section

variable {f : ServedFile} {cfg : BenchConfig} {bound k : ℕ} {bytes₀ bytes offset : UInt64}
  {log : List Transfer} {nfs : NFSClient}

/-- A turn transfers `n` bytes. The loop goes on behind these, if it does not begin again; it may only do
that when it is through, and at the size it has to. -/
theorem Going.next (h : Going bound cfg bytes₀ k offset bytes log) (hcfg : cfg.Accepted)
    (hsize : cfg.size.toNat + cfg.bs.toNat ≤ 2 ^ 64) (hbound : bound ≤ cfg.size.toNat) {n : UInt64}
    (hn : n.toNat ≤ cfg.bs.toNat) (again : Prop) [Decidable again]
    (hagain : again → bound ≤ offset.toNat + n.toNat) :
    Going bound cfg bytes₀ (k + 1) (if again ∨ cfg.size ≤ offset + n then 0 else offset + n) (bytes + n)
      (⟨offset.toNat, n.toNat⟩ :: log) := by
  obtain ⟨⟨laps, hlaps⟩, hone, hcounted⟩ := h
  have hlt := hlaps.pos_lt (UInt64.lt_iff_toNat_lt.mp hcfg.size_pos)
  -- the offset stays below the size, so that the sum has no carry
  have hsum : (offset + n).toNat = offset.toNat + n.toNat := by
    rw [UInt64.toNat_add, Nat.mod_eq_of_lt (by omega)]
  have hend : cfg.size ≤ offset + n ↔ cfg.size.toNat ≤ offset.toNat + n.toNat := by
    rw [UInt64.le_iff_toNat_le, hsum]
  refine ⟨?_, congrArg (· + 1) hone, ?_⟩
  · by_cases hwrap : again ∨ cfg.size ≤ offset + n
    · rw [if_pos hwrap]
      exact ⟨laps + 1, .around hlaps (hwrap.elim hagain fun hle => hbound.trans (hend.mp hle))⟩
    · rw [if_neg hwrap, hsum]
      rw [not_or, hend, Nat.not_le] at hwrap
      exact ⟨laps, .further hlaps hwrap.2⟩
  · rw [hcounted, total_cons, Nat.add_comm, UInt64.ofNat_add, UInt64.ofNat_toNat, UInt64.add_assoc]

/-- A read that gets nothing is at the end of the file. -/
theorem ServedFile.twpM_readOn (hcfg : cfg.Accepted) (hsize : cfg.size.toNat + cfg.bs.toNat ≤ 2 ^ 64)
    (turn : Turn) (h : Going (min cfg.size.toNat f.length) cfg bytes₀ k offset bytes log) :
    twpM f.Serves f.Served (fun r _ log' => ∃ n, r = .ok n ∧
        Going (min cfg.size.toNat f.length) cfg bytes₀ (k + 1) n.2 (bytes + n.1) log')
      (readOn cfg f.fh offset turn) nfs log := by
  refine twpM_bind.mpr (f.twpM_read hcfg.bs_pos fun data nfs hle hmore => ⟨_, rfl, ?_⟩)
  have hlen : (UInt64.ofNat data.length).toNat = data.length := by
    have hbs := cfg.bs.toNat_lt
    rw [UInt64.toNat_ofNat', Nat.mod_eq_of_lt (by omega)]
  have hnext := h.next hcfg hsize (min_le_left _ _) (n := UInt64.ofNat data.length) (by rwa [hlen])
    (data = []) fun hnil => ?_
  · rw [hlen] at hnext
    exact hnext
  · by_contra hbelow
    have hpos := hmore (by omega)
    rw [hnil] at hpos
    exact absurd hpos (Nat.lt_irrefl 0)

theorem ServedFile.twpM_writeOn (hcfg : cfg.Accepted) (hsize : cfg.size.toNat + cfg.bs.toNat ≤ 2 ^ 64)
    {buf : Bytes} (hbuf : buf.length = cfg.bs.toNat) (turn : Turn)
    (h : Going cfg.size.toNat cfg bytes₀ k offset bytes log) :
    twpM f.Serves f.Served (fun r _ log' => ∃ n, r = .ok n ∧
        Going cfg.size.toNat cfg bytes₀ (k + 1) n.2 (bytes + n.1) log')
      (writeOn cfg f.fh buf offset turn) nfs log := by
  have hbuf' : buf.length < 2 ^ 32 := hbuf.trans_lt cfg.bs.toNat_lt
  refine twpM_bind.mpr (f.twpM_write hbuf' fun result nfs hle => ⟨_, rfl, ?_⟩)
  have hcount := UInt32.toNat_toUInt64 result.count
  have hnext := h.next hcfg hsize le_rfl (n := result.count.toUInt64) (by rwa [hcount, ← hbuf])
    False False.elim
  simp only [false_or] at hnext
  rw [hcount] at hnext
  exact hnext

end

/-! ### Whole runs -/

/-- The workloads that go through a file from its beginning to its end. -/
inductive SequentialWorkload
  | seqread | seqwrite
  deriving DecidableEq, Repr

namespace SequentialWorkload

def run (workdir : Fh3) (cfg : BenchConfig) (tid : ℕ) (turns : List Turn) :
    SequentialWorkload → ClientM Worker Unit
  | seqread => Bench.seqread workdir cfg turns
  | seqwrite => Bench.seqwrite workdir cfg tid turns

/-- The name of the file. -/
def fileName (tid : ℕ) : SequentialWorkload → Bytes
  | seqread => BENCH_FILE
  | seqwrite => ascii ("bench_write_" ++ toString tid)

/-- Where a lap ends. -/
def bound (cfg : BenchConfig) (f : ServedFile) : SequentialWorkload → ℕ
  | seqread => min cfg.size.toNat f.length
  | seqwrite => cfg.size.toNat

end SequentialWorkload

/-- What a run has transferred: something in each turn and in no other way, from below the size on, as much
as it has counted; and all of what is below `bound` evenly. -/
structure Evenly (bound : ℕ) (cfg : BenchConfig) (turns : List Turn) (bytes₀ bytes : UInt64)
    (log : List Transfer) : Prop where
  one_each : log.length = turns.length
  inside : ∀ e ∈ log, e.offset < cfg.size.toNat
  counted : bytes = bytes₀ + UInt64.ofNat (total log)
  even : ∃ laps pos, laps * bound + pos ≤ total log ∧
    ∀ p < bound, visits log p = laps + if p < pos then 1 else 0

section

variable {f : ServedFile} {cfg : BenchConfig} {turns : List Turn} {w : Worker} {nfs : NFSClient}

theorem Going.evenly {bound : ℕ} {bytes₀ bytes offset : UInt64} {log : List Transfer}
    (hcfg : cfg.Accepted) (h : Going bound cfg bytes₀ (0 + turns.length) offset bytes log) :
    Evenly bound cfg turns bytes₀ bytes log := by
  obtain ⟨⟨laps, hlaps⟩, hone, hcounted⟩ := h
  have hpos := UInt64.lt_iff_toNat_lt.mp hcfg.size_pos
  refine ⟨hone.trans (Nat.zero_add _), fun e he => hlaps.offset_lt hpos he, hcounted, laps, _,
    hlaps.le_total, fun p hp => hlaps.visits_eq hp⟩

/-- At the beginning nothing is transferred. -/
theorem going_start (bound : ℕ) (cfg : BenchConfig) (bytes₀ : UInt64) :
    Going bound cfg bytes₀ 0 0 bytes₀ [] :=
  ⟨⟨0, .start⟩, rfl, (UInt64.add_zero bytes₀).symm⟩

/-- A loop from the beginning of the file on. -/
theorem ServedFile.twpM_laps {bound : ℕ} (hcfg : cfg.Accepted)
    {io : UInt64 → Turn → ClientM NFSClient (UInt64 × UInt64)}
    (hio : ∀ k offset turn bytes nfs log, Going bound cfg w.bytes k offset bytes log →
      twpM f.Serves f.Served (fun r _ log' => ∃ n, r = .ok n ∧
        Going bound cfg w.bytes (k + 1) n.2 (bytes + n.1) log') (io offset turn) nfs log) :
    twpM f.Serves f.Served (fun r w' log => r = .ok () ∧ Tallied w turns w' ∧
      Evenly bound cfg turns w.bytes w'.bytes log) (loopFrom io 0 turns) w [] := by
  refine twpM_mono ?_ (twpM_loopFrom
    (I := fun k offset bytes _ log => Going bound cfg w.bytes k offset bytes log) hio turns 0 0 w [] (going_start bound cfg w.bytes))
  rintro r w' log ⟨hr, htallied, offset, hgoing⟩
  exact ⟨hr, htallied, hgoing.evenly hcfg⟩

end

/-- **Sequential I/O is even.** However much the server transfers in each READ or WRITE, every turn makes
one, it begins below the size, and the bytes are counted that were transferred. Any two bytes of the file
have been transferred equally often, up to the lap that is not over. -/
theorem sequential_io_even (workload : SequentialWorkload) (f : ServedFile) (cfg : BenchConfig)
    (hcfg : cfg.Accepted) (hsize : cfg.size.toNat + cfg.bs.toNat ≤ 2 ^ 64) (tid : ℕ)
    (hname : f.name = workload.fileName tid) (turns : List Turn) (w : Worker) :
    twpM f.Serves f.Served
      (fun r w' log => r = .ok () ∧ Tallied w turns w' ∧
        Evenly (workload.bound cfg f) cfg turns w.bytes w'.bytes log)
      (workload.run f.workdir cfg tid turns) w [] := by
  cases workload with
  | seqread =>
    show twpM _ _ _ (seqread f.workdir cfg turns) w []
    unfold seqread
    rw [show BENCH_FILE = f.name from hname.symm]
    refine twpM_bind.mpr (twpM_onMember.mpr (f.twpM_lookup fun nfs => ?_))
    exact ServedFile.twpM_laps (w := { w with client := nfs }) hcfg
      fun k offset turn bytes nfs log h => f.twpM_readOn hcfg hsize turn h
  | seqwrite =>
    show twpM _ _ _ (seqwrite f.workdir cfg tid turns) w []
    unfold seqwrite
    rw [show ascii ("bench_write_" ++ toString tid) = f.name from hname.symm]
    refine twpM_bind.mpr (twpM_onMember.mpr (f.twpM_create fun nfs => ?_))
    refine twpM_bind.mpr (twpM_mono ?_ (ServedFile.twpM_laps (w := { w with client := nfs }) hcfg
      fun k offset turn bytes nfs log h => f.twpM_writeOn hcfg hsize List.length_replicate turn h))
    rintro _ w' log ⟨rfl, htallied, heven⟩
    exact twpM_onMember.mpr (f.twpM_remove fun nfs => ⟨rfl, htallied, heven⟩)

/-- A file of two bytes, of which the benchmark wants three. -/
def shortFile : ServedFile where
  workdir := ⟨[1]⟩
  name := BENCH_FILE
  fh := ⟨[2]⟩
  length := 2
  workdir_fits := by decide
  name_fits := by decide
  fh_fits := by decide

/-- Five reads. Each gets two bytes or one of them, or none when it is at the end. -/
theorem shortFile_read_even :
    let turns : List Turn := List.replicate 5 ⟨0, true, 1000⟩
    twpM shortFile.Serves shortFile.Served
      (fun r w' log => r = .ok () ∧ Tallied ⟨⟨.connect 2049⟩, {}, 0, 0⟩ turns w' ∧
        Evenly 2 { bs := 2, size := 3 } turns 0 w'.bytes log)
      (SequentialWorkload.seqread.run ⟨[1]⟩ { bs := 2, size := 3 } 0 turns)
      ⟨⟨.connect 2049⟩, {}, 0, 0⟩ [] :=
  sequential_io_even .seqread shortFile { bs := 2, size := 3 } ⟨by decide, by decide⟩ (by decide) 0 rfl
    (List.replicate 5 ⟨0, true, 1000⟩) _

end Bench

end NfsClient
