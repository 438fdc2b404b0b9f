import NfsClient.Bench.Workloads

/-!
# Filling the benchmark file

The setup of `seqread`, `randread` and `mixed` writes the file `bench_data` block by block. A server
may store less of a WRITE than it is given, and says in the reply how much it was. The loop does not
look at the reply: its progress is what it asked for. So the WRITEs lie side by side and end at the
size (`Tiles`), whatever the server does with them, and the file is filled if and only if each of them
was stored in full (`fill_filled_iff`). What is left out of a WRITE is left out for good, since no
other WRITE comes back to it.

The loop of `workload_seqwrite.cpp` goes on from the count in the reply.
-/

namespace NfsClient

open Xdr Interaction Nfs3

namespace Bench

/-! ### WRITEs side by side -/

/-- A WRITE that was answered: what it was given, and how much of it was stored. -/
structure Stored where
  offset : ℕ
  data : Bytes
  count : ℕ
  deriving DecidableEq, Repr

/-- The WRITE stored a byte at position `p`. -/
def Stored.Holds (e : Stored) (p : ℕ) : Prop := e.offset ≤ p ∧ p < e.offset + e.count

/-- All of it was stored. -/
def Stored.Full (e : Stored) : Prop := e.count = e.data.length

/-- A byte has been written at position `p`. -/
def Written (log : List Stored) (p : ℕ) : Prop := ∃ e ∈ log, e.Holds p

/-- The positions below `size` have been written, and no others. -/
def Filled (size : ℕ) (log : List Stored) : Prop := ∀ p, Written log p ↔ p < size

/-- WRITEs, the last one first, that were to fill `[0, size)`: each begins where the one before it was
to end. -/
inductive Tiles : List Stored → ℕ → Prop
  | nil : Tiles [] 0
  | cons {e : Stored} {log : List Stored} (h : Tiles log e.offset) (hle : e.count ≤ e.data.length) :
      Tiles (e :: log) (e.offset + e.data.length)

section Tiles

variable {log : List Stored} {size : ℕ}

/-- Nothing is written beyond the end. -/
theorem Tiles.lt (h : Tiles log size) {p : ℕ} (hp : Written log p) : p < size := by
  induction h with
  | nil =>
    obtain ⟨e, he, -⟩ := hp
    exact absurd he List.not_mem_nil
  | @cons e log h hle ih =>
    obtain ⟨e', he', hlow, hhigh⟩ := hp
    rcases List.mem_cons.mp he' with rfl | he'
    · omega
    · have := ih ⟨e', he', hlow, hhigh⟩
      omega

/-- Everything is written exactly if every WRITE was stored in full. -/
theorem Tiles.covers_iff (h : Tiles log size) :
    (∀ p < size, Written log p) ↔ ∀ e ∈ log, e.Full := by
  induction h with
  | nil => exact ⟨fun _ e he => absurd he List.not_mem_nil, fun _ p hp => absurd hp (Nat.not_lt_zero p)⟩
  | @cons e log h hle ih =>
    constructor
    · intro hall e' he'
      have hbelow : ∀ p < e.offset, Written log p := by
        intro p hp
        obtain ⟨e₁, he₁, hholds⟩ := hall p (by omega)
        rcases List.mem_cons.mp he₁ with rfl | he₁
        · exact absurd hholds.1 (Nat.not_le.mpr hp)
        · exact ⟨e₁, he₁, hholds⟩
      rcases List.mem_cons.mp he' with rfl | he'
      · -- the first byte that it left out is in no other WRITE
        by_contra hshort
        have hlt : e'.count < e'.data.length := Nat.lt_of_le_of_ne hle hshort
        obtain ⟨e₁, he₁, hholds⟩ := hall (e'.offset + e'.count) (by omega)
        rcases List.mem_cons.mp he₁ with rfl | he₁
        · exact absurd hholds.2 (Nat.lt_irrefl _)
        · have := h.lt ⟨e₁, he₁, hholds⟩
          omega
      · exact ih.mp hbelow e' he'
    · intro hfull p hp
      have he : e.count = e.data.length := hfull e List.mem_cons_self
      by_cases hlow : e.offset ≤ p
      · exact ⟨e, List.mem_cons_self, hlow, by omega⟩
      -- below the last WRITE it is the tiling before it that covers
      · obtain ⟨e₁, he₁, hholds⟩ :=
          ih.mpr (fun e' he' => hfull e' (List.mem_cons_of_mem e he')) p (Nat.not_le.mp hlow)
        exact ⟨e₁, List.mem_cons_of_mem e he₁, hholds⟩

theorem Tiles.filled_iff (h : Tiles log size) : Filled size log ↔ ∀ e ∈ log, e.Full := by
  rw [← h.covers_iff]
  exact ⟨fun hall p hp => (hall p).mpr hp, fun hall p => ⟨fun hp => h.lt hp, hall p⟩⟩

end Tiles

/-! ### The server -/

/-- A server that has the file `bench_data` in `workdir` under the handle `fh`. It stores at least one
byte of a WRITE and as many as it likes, from the first one on, and says how many. -/
inductive Serves (workdir : Fh3) (fh : Fh3) : Step RpcRequest Received (List Stored)
  | create {log : List Stored} {q : RpcRequest} {how : (m : CreateMode3) × CreateArm m}
      {r : Received} {attrs : Option Fattr3} {wcc : WccData}
      (hq : Asks .CREATE q (workdir.data, BENCH_FILE, how))
      (hr : Carries .CREATE r (some fh.data, attrs, wcc)) : Serves workdir fh log q r log
  | write {log : List Stored} {q : RpcRequest} {offset : UInt64} {size stable : UInt32} {data : Bytes}
      {r : Received} {wcc : WccData} {count committed : UInt32} {verf : Octets 8}
      (hq : Asks .WRITE q (fh.data, offset, size, stable, data)) (hpos : 0 < count.toNat)
      (hle : count.toNat ≤ data.length) (hr : Carries .WRITE r (wcc, count, committed, verf)) :
      Serves workdir fh log q r (⟨offset.toNat, data, count.toNat⟩ :: log)

/-- The server has an answer. -/
def Served (workdir fh : Fh3) (log : List Stored) (q : RpcRequest) : Prop :=
  ∃ r log', Serves workdir fh log q r log'

section

variable {workdir fh : Fh3} {log log' : List Stored} {offset : UInt64} {stable : Stable3}
  {data : Bytes} {rpc : TcpRpcClient} {r : Received}

theorem served_create (hworkdir : workdir.data.length < 2 ^ 32) (hfh : fh.data.length < 2 ^ 32)
    (attrs : Sattr3) :
    Served workdir fh log
      ((Call.create workdir BENCH_FILE .UNCHECKED CreateMode3.noConfusion attrs).request rpc) := by
  have hobj : Wire.postOpFh3.Fits (some fh.data) := by
    rintro data ⟨⟩
    exact hfh
  obtain ⟨r, hr⟩ := exists_carries (p := .CREATE) (r := (some fh.data, none, none, none))
    ⟨hobj, fits_postOpAttr none, fits_wccData (none, none)⟩
  have hasks := Call.asks (c := .create workdir BENCH_FILE .UNCHECKED CreateMode3.noConfusion attrs)
    ⟨hworkdir, by decide⟩ rpc
  exact ⟨r, log, .create hasks hr⟩

/-- A WRITE of at least one byte may be stored in full. -/
theorem served_write (hfh : fh.data.length < 2 ^ 32) (hpos : 0 < data.length)
    (hdata : data.length < 2 ^ 32) :
    Served workdir fh log ((Call.write fh offset stable data).request rpc) := by
  obtain ⟨r, hr⟩ := exists_carries (p := .WRITE)
    (r := ((none, none), UInt32.ofNat data.length, 0, Octets.zero 8))
    ⟨fits_wccData (none, none), trivial, trivial, trivial⟩
  have hcount : (UInt32.ofNat data.length).toNat = data.length := toNat_ofNat_of_lt hdata
  have hasks := Call.asks (c := .write fh offset stable data) ⟨hfh, hdata⟩ rpc
  exact ⟨r, _, .write hasks (hpos.trans_eq hcount.symm) hcount.le hr⟩

/-- The answer to the CREATE is the handle. -/
theorem serves_create {dir : Fh3} {name : Bytes} {attrs : Sattr3}
    (h : Serves workdir fh log
      ((Call.create dir name .UNCHECKED CreateMode3.noConfusion attrs).request rpc) r log') :
    (Call.create dir name .UNCHECKED CreateMode3.noConfusion attrs).result r = .ok fh ∧ log' = log := by
  cases h with
  | create hq hr =>
    exact ⟨Call.result_of_carries (c := .create dir name .UNCHECKED CreateMode3.noConfusion attrs) hr,
      rfl⟩
  | write hq hpos hle hr => exact absurd hq (Call.not_asks Proc.noConfusion rpc _)

/-- The answer to a WRITE, and what is stored of it. -/
theorem serves_write (hfh : fh.data.length < 2 ^ 32) (hdata : data.length < 2 ^ 32)
    (h : Serves workdir fh log ((Call.write fh offset stable data).request rpc) r log') :
    ∃ result count, (Call.write fh offset stable data).result r = .ok result ∧
      count ≤ data.length ∧ log' = ⟨offset.toNat, data, count⟩ :: log := by
  cases h with
  | create hq hr => exact absurd hq (Call.not_asks Proc.noConfusion rpc _)
  | write hq hpos hle hr =>
    cases (Call.asks (c := .write fh offset stable data) ⟨hfh, hdata⟩ rpc).unique hq
    exact ⟨_, _, Call.result_of_carries (c := .write fh offset stable data) hr, hle, rfl⟩

end

/-! ### The loop -/

theorem toNat_chunk (cfg : BenchConfig) {written : UInt64} (h : written < cfg.size) :
    (min cfg.bs.toUInt64 (cfg.size - written)).toUInt32.toNat =
      min cfg.bs.toNat (cfg.size.toNat - written.toNat) := by
  have hrest : (cfg.size - written).toNat = cfg.size.toNat - written.toNat :=
    UInt64.toNat_sub_of_le _ _ (UInt64.le_of_lt h)
  have hmin : (min cfg.bs.toUInt64 (cfg.size - written)).toNat =
      min cfg.bs.toNat (cfg.size.toNat - written.toNat) := by
    rw [← hrest, ← UInt32.toNat_toUInt64 cfg.bs]
    rcases le_total cfg.bs.toUInt64 (cfg.size - written) with hle | hle
    · rw [min_eq_left hle, min_eq_left (UInt64.le_iff_toNat_le.mp hle)]
    · rw [min_eq_right hle, min_eq_right (UInt64.le_iff_toNat_le.mp hle)]
  have hlt := cfg.bs.toNat_lt
  rw [UInt64.toNat_toUInt32, hmin, Nat.mod_eq_of_lt (by omega)]

section

variable {cfg : BenchConfig} {workdir fh : Fh3} {buf : Bytes}

/-- **The loop**: what it has asked for is `[0, written)`, and in the end `[0, size)`. -/
theorem twpM_fillLoop (hbs : 0 < cfg.bs) (hfh : fh.data.length < 2 ^ 32)
    (hbuf : buf.length = cfg.bs.toNat) :
    ∀ {fuel : ℕ} {written : UInt64} {log : List Stored} {nfs : NFSClient},
      Tiles log written.toNat → written.toNat ≤ cfg.size.toNat →
      cfg.size.toNat - written.toNat < fuel →
      twpM (Serves workdir fh) (Served workdir fh)
        (fun r _ log => r = .ok () ∧ Tiles log cfg.size.toNat) (fillLoop cfg buf fh fuel written) nfs
        log
  | 0, _, _, _, _, _, hfuel => absurd hfuel (Nat.not_lt_zero _)
  | fuel + 1, written, log, nfs, hlog, hle, hfuel => by
    unfold fillLoop
    split
    · next hlt =>
      have hchunk := toNat_chunk cfg hlt
      rw [UInt64.lt_iff_toNat_lt] at hlt
      have hbs : 0 < cfg.bs.toNat := UInt32.lt_iff_toNat_lt.mp hbs
      generalize (min cfg.bs.toUInt64 (cfg.size - written)).toUInt32 = chunk at hchunk ⊢
      have hdata : (buf.take chunk.toNat).length = chunk.toNat := by
        rw [List.length_take, hbuf, hchunk]
        omega
      have hdata' : (buf.take chunk.toNat).length < 2 ^ 32 := hdata.trans_lt chunk.toNat_lt
      have hnext : (written + chunk.toUInt64).toNat =
          written.toNat + (buf.take chunk.toNat).length := by
        have hsize := cfg.size.toNat_lt
        rw [UInt64.toNat_add, UInt32.toNat_toUInt64, hdata, Nat.mod_eq_of_lt (by omega)]
      refine twpM_bind.mpr (twpM_client_call.mpr ⟨served_write hfh (by omega) hdata', ?_⟩)
      intro r log' hserves
      obtain ⟨result, count, hresult, hcount, rfl⟩ := serves_write hfh hdata' hserves
      rw [hresult]
      -- the count in the reply is not looked at
      have hlog' : Tiles (⟨written.toNat, buf.take chunk.toNat, count⟩ :: log)
          (written + chunk.toUInt64).toNat := by
        rw [hnext]
        exact .cons (e := ⟨written.toNat, buf.take chunk.toNat, count⟩) hlog hcount
      exact twpM_fillLoop hbs hfh hbuf hlog' (by omega) (by omega)
    · next hge =>
      rw [UInt64.lt_iff_toNat_lt] at hge
      have heq : written.toNat = cfg.size.toNat := by omega
      exact ⟨rfl, heq ▸ hlog⟩

theorem twpM_fill (hcfg : cfg.Accepted) (hworkdir : workdir.data.length < 2 ^ 32)
    (hfh : fh.data.length < 2 ^ 32) {fuel : ℕ} (hfuel : cfg.size.toNat < fuel) (byte : UInt8)
    (nfs : NFSClient) :
    twpM (Serves workdir fh) (Served workdir fh)
      (fun r _ log => r = .ok () ∧ Tiles log cfg.size.toNat) (fill byte fuel workdir cfg) nfs [] := by
  refine twpM_bind.mpr (twpM_client_call.mpr ⟨served_create hworkdir hfh {}, ?_⟩)
  intro r log hserves
  obtain ⟨hresult, rfl⟩ := serves_create hserves
  rw [hresult]
  exact twpM_fillLoop hcfg.bs_pos hfh List.length_replicate .nil (Nat.zero_le _) hfuel

/-- **The file is filled** exactly if every WRITE is stored in full. The setup ends in any case, and
nothing is written beyond the size. -/
theorem fill_filled_iff (workload : FillWorkload) (cfg : BenchConfig) (hcfg : cfg.Accepted)
    (workdir fh : Fh3) (hworkdir : workdir.data.length < 2 ^ 32) (hfh : fh.data.length < 2 ^ 32)
    (fuel : ℕ) (hfuel : cfg.size.toNat < fuel) (nfs : NFSClient) :
    twpM (Serves workdir fh) (Served workdir fh)
      (fun r _ log => r = .ok () ∧ (∀ p, Written log p → p < cfg.size.toNat) ∧
        (Filled cfg.size.toNat log ↔ ∀ e ∈ log, e.Full))
      (workload.setup fuel workdir cfg) nfs [] := by
  have hfill : ∀ byte, twpM (Serves workdir fh) (Served workdir fh)
      (fun r _ log => r = .ok () ∧ (∀ p, Written log p → p < cfg.size.toNat) ∧
        (Filled cfg.size.toNat log ↔ ∀ e ∈ log, e.Full)) (fill byte fuel workdir cfg) nfs [] := by
    intro byte
    refine twpM_mono (fun r nfs log h => ?_) (twpM_fill hcfg hworkdir hfh hfuel byte nfs)
    obtain ⟨hr, hlog⟩ := h
    exact ⟨hr, fun p hp => hlog.lt hp, hlog.filled_iff⟩
  cases workload with
  | seqread => exact hfill 0xAB
  | randread => exact hfill 0xCD
  | mixed => exact hfill 0xEF

end

/-! ### A file of two bytes -/

def twoBytes : BenchConfig := { bs := 2, size := 2 }

theorem twoBytes_accepted : twoBytes.Accepted := ⟨by decide, by decide⟩

theorem twoBytes_filled_iff :
    twpM (Serves ⟨[1]⟩ ⟨[2]⟩) (Served ⟨[1]⟩ ⟨[2]⟩)
      (fun r _ log => r = .ok () ∧ (∀ p, Written log p → p < twoBytes.size.toNat) ∧
        (Filled twoBytes.size.toNat log ↔ ∀ e ∈ log, e.Full))
      (FillWorkload.seqread.setup 3 ⟨[1]⟩ twoBytes) ⟨.connect 2049⟩ [] :=
  fill_filled_iff .seqread twoBytes twoBytes_accepted ⟨[1]⟩ ⟨[2]⟩ (by decide) (by decide) 3 (by decide)
    _

/-- The server stores the first of two bytes, and that is all that is ever written. -/
theorem short_write_unfilled :
    ¬ ∀ (workload : FillWorkload) (cfg : BenchConfig), cfg.Accepted → ∀ workdir fh : Fh3,
      workdir.data.length < 2 ^ 32 → fh.data.length < 2 ^ 32 → ∀ fuel : ℕ, cfg.size.toNat < fuel →
        ∀ nfs : NFSClient, twpM (Serves workdir fh) (Served workdir fh)
          (fun r _ log => r = .ok () ∧ Filled cfg.size.toNat log)
          (workload.setup fuel workdir cfg) nfs [] := by
  intro hclaim
  have h := hclaim .seqread twoBytes twoBytes_accepted ⟨[1]⟩ ⟨[2]⟩ (by decide) (by decide) 3
    (by decide) ⟨.connect 2049⟩
  -- the CREATE
  obtain ⟨r₁, log, hserves⟩ : Served ⟨[1]⟩ ⟨[2]⟩ []
      ((Call.create ⟨[1]⟩ BENCH_FILE .UNCHECKED CreateMode3.noConfusion {}).request
        (.connect 2049)) := served_create (by decide) (by decide) {}
  obtain ⟨hfh, rfl⟩ := serves_create hserves
  have h₁ := (twpM_client_call.mp (twpM_bind.mp h)).2 r₁ [] hserves
  rw [hfh] at h₁
  -- the WRITE of two bytes, of which one is stored
  have hasks := Call.asks (c := .write ⟨[2]⟩ 0 .FILE_SYNC [0xAB, 0xAB]) ⟨by decide, by decide⟩
    (TcpRpcClient.connect 2049).bump
  obtain ⟨r₂, hr₂⟩ := exists_carries (p := .WRITE) (r := ((none, none), 1, 2, Octets.zero 8))
    ⟨fits_wccData (none, none), trivial, trivial, trivial⟩
  have h₂ := (twpM_client_call.mp (twpM_bind.mp h₁)).2 r₂ [⟨0, [0xAB, 0xAB], 1⟩]
    (.write hasks (by decide) (by decide) hr₂)
  rw [Call.result_of_carries (c := .write _ _ _ _) hr₂] at h₂
  -- and the loop is at its end
  have hfilled : Filled 2 [⟨0, [0xAB, 0xAB], 1⟩] := And.right h₂
  obtain ⟨e, he, -, hlt⟩ := (hfilled 1).mpr (by decide)
  rw [List.mem_singleton.mp he] at hlt
  exact absurd hlt (by decide)

end Bench

end NfsClient
