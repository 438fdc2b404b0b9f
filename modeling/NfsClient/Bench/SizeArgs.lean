import Mathlib.Data.Nat.Digits.Defs
import NfsClient.Bench.Workloads

/-!
# Size arguments

The command line of the benchmark tool (main.cpp): `parse_size`, which reads the strings of `--bs` and
`--size` with `strtoull`, and the argument loop of `main`, which puts the values into the
configuration.

On the way from the string to the field there are four places where something is lost without a
word. `strtoull` saturates and negates, the shift by the unit drops high bits, whatever follows the
unit is not looked at, and the field of `--bs` has half as many bits as the value. What a string says
(`Denotes`) is stated apart from that, and a string that is accepted arrives as what it says exactly
if none of these places is reached (`Exact`, `size_args_exact_iff`).
-/

namespace NfsClient

open Xdr

namespace Bench

/-- A string of the command line: its bytes up to the NUL at the end. -/
structure CString where
  bytes : Bytes
  no_nul : 0 ∉ bytes
  deriving DecidableEq

def chr (c : Char) : UInt8 := UInt8.ofNat c.toNat

/-! ### `strtoull` -/

/-- `isspace` in the C locale. -/
def isSpace (b : UInt8) : Bool := b == chr ' ' || (chr '\t' ≤ b && b ≤ chr '\r')

def isDigit (b : UInt8) : Bool := chr '0' ≤ b && b ≤ chr '9'

/-- The value of a string of digits. -/
def decimal (digits : Bytes) : ℕ := digits.foldl (fun n d => 10 * n + (d - chr '0').toNat) 0

/-- What `strtoull` finds behind the spaces: a sign, the digits, and the rest of the string. -/
structure Scan where
  negative : Bool
  digits : Bytes
  rest : Bytes
  deriving DecidableEq, Repr

def scanSign : Bytes → Bool × Bytes
  | [] => (false, [])
  | c :: t => if c = chr '-' then (true, t) else if c = chr '+' then (false, t) else (false, c :: t)

def scan (s : Bytes) : Scan :=
  let t := scanSign (s.dropWhile isSpace)
  ⟨t.1, t.2.takeWhile isDigit, t.2.dropWhile isDigit⟩

def ULLONG_MAX : UInt64 := 0xFFFFFFFFFFFFFFFF

/-- `strtoull(s, &end, 10)` with what is left at `end`. Without digits it consumes nothing, a number
that does not fit becomes `ULLONG_MAX`, and a sign negates in the type of the result. -/
def strtoull (s : Bytes) : UInt64 × Bytes :=
  let n := scan s
  if n.digits = [] then (0, s)
  else if decimal n.digits ≥ 2 ^ 64 then (ULLONG_MAX, n.rest)
  else (if n.negative then -UInt64.ofNat (decimal n.digits) else UInt64.ofNat (decimal n.digits), n.rest)

/-! ### `parse_size` -/

/-- A message about a string. -/
def complaint (what : String) (s : Bytes) (close : String := "") : String :=
  what ++ String.ofList (s.map fun b => Char.ofNat b.toNat) ++ close

/-- The `switch` on the character at `end`: the shift of the unit. -/
def unitShift : Option UInt8 → Option ℕ
  | none => some 0  -- '\0'
  | some c =>
    if c = chr 'K' ∨ c = chr 'k' then some 10
    else if c = chr 'M' ∨ c = chr 'm' then some 20
    else if c = chr 'G' ∨ c = chr 'g' then some 30
    else none

def parseSize (s : CString) : Except Exn UInt64 :=
  let n := strtoull s.bytes
  -- `end == s`: there was no digit
  if n.2 = s.bytes then .error (.runtimeError (complaint "bad size: " s.bytes))
  else match unitShift n.2.head? with
    | some k => .ok (n.1 <<< UInt64.ofNat k)
    | none => .error (.runtimeError (complaint "bad size suffix: " n.2))

/-! ### The arguments of `main` -/

/-- `cfg`, without the field `rw_ratio`. -/
structure Options extends BenchConfig where
  server : Bytes := []
  export_path : Bytes := []
  workload : Bytes := []
  threads : UInt32 := 1
  duration : UInt32 := 30
  csv_path : Bytes := []
  deriving DecidableEq, Repr

/-- How `main` gives up before it does anything: with an exception that nobody catches, or with a
line on stderr, with or without the usage, and the exit code 1. -/
inductive Exit
  | uncaught (e : Exn)
  | failed (message : String) (usage : Bool)
  deriving DecidableEq, Repr

inductive Flag
  | server | exportPath | workload | bs | size | threads | duration | rwRatio | csv | stable
  deriving DecidableEq, Repr

namespace Flag

def name : Flag → Bytes
  | server => ascii "--server"
  | exportPath => ascii "--export"
  | workload => ascii "--workload"
  | bs => ascii "--bs"
  | size => ascii "--size"
  | threads => ascii "--threads"
  | duration => ascii "--duration"
  | rwRatio => ascii "--rw-ratio"
  | csv => ascii "--csv"
  | stable => ascii "--stable"

/-- The flags, in the order in which they are compared. -/
def all : List Flag :=
  [server, exportPath, workload, bs, size, threads, duration, rwRatio, csv, stable]

end Flag

section

/- `atoi` is undefined on numbers that are no `int`. -/
variable (atoi : Bytes → Int32)

/-- What `main` does with the string that follows a flag. -/
def Options.assign (cfg : Options) (flag : Flag) (s : CString) : Except Exit Options :=
  match flag with
  | .server => .ok { cfg with server := s.bytes }
  | .exportPath => .ok { cfg with export_path := s.bytes }
  | .workload => .ok { cfg with workload := s.bytes }
  | .bs =>
    match parseSize s with
    -- `static_cast<uint32_t>`, without a check
    | .ok v => .ok { cfg with bs := v.toUInt32 }
    | .error e => .error (.uncaught e)
  | .size =>
    match parseSize s with
    | .ok v => .ok { cfg with size := v }
    | .error e => .error (.uncaught e)
  | .threads => .ok { cfg with threads := (atoi s.bytes).toUInt32 }
  | .duration => .ok { cfg with duration := (atoi s.bytes).toUInt32 }
  -- the share of reads is no field here: it enters the mixed workload through the draws
  | .rwRatio => .ok cfg
  | .csv => .ok { cfg with csv_path := s.bytes }
  | .stable =>
    if s.bytes = ascii "unstable" then .ok { cfg with stable := .UNSTABLE }
    else if s.bytes = ascii "datasync" then .ok { cfg with stable := .DATA_SYNC }
    else if s.bytes = ascii "filesync" then .ok { cfg with stable := .FILE_SYNC }
    else .error (.failed (complaint "unknown stable mode: " s.bytes) false)

/-- The loop over `argv`. A flag is taken for one only if a string follows it. -/
def argLoop : List CString → Options → Except Exit Options
  | [], cfg => .ok cfg
  -- a flag without a string falls through to the last branch
  | [a], _ => .error (.failed (complaint "unknown argument: " a.bytes) true)
  | a :: s :: args, cfg =>
    match Flag.all.find? fun f => f.name = a.bytes with
    | some flag => do
      let cfg ← cfg.assign atoi flag s
      argLoop args cfg
    | none => .error (.failed (complaint "unknown argument: " a.bytes) true)

/-- The keys of `registry`. -/
def registry : List Bytes :=
  ["seqread", "seqwrite", "randread", "randwrite", "meta", "mixed"].map ascii

/-- `main` up to the choice of the workload. -/
def configure (args : List CString) : Except Exit Options := do
  let cfg ← argLoop atoi args {}
  -- `print_usage`, and exit code 1
  if cfg.server = [] ∨ cfg.export_path = [] ∨ cfg.workload = [] then .error (.failed "" true)
  else if cfg.bs = 0 ∨ cfg.size = 0 ∨ cfg.threads = 0 ∨ cfg.duration = 0 then
    .error (.failed "bs, size, threads, and duration must be > 0" false)
  else if cfg.workload ∉ registry then
    .error (.failed (complaint "unknown workload '" cfg.workload
      "'\navailable: seqread, seqwrite, randread, randwrite, meta, mixed") false)
  else return cfg

end

/-! ### What a string says -/

inductive Sign
  | none | plus | minus
  deriving DecidableEq, Repr

namespace Sign

def spelling : Sign → Bytes
  | none => []
  | plus => ascii "+"
  | minus => ascii "-"

def factor : Sign → ℤ
  | minus => -1
  | _ => 1

end Sign

/-- The units of a size: bytes, and the suffixes of the usage. -/
inductive SizeUnit
  | bytes | K | M | G
  deriving DecidableEq, Repr

namespace SizeUnit

def spellings : SizeUnit → List Bytes
  | bytes => [[]]
  | K => [ascii "K", ascii "k"]
  | M => [ascii "M", ascii "m"]
  | G => [ascii "G", ascii "g"]

def bits : SizeUnit → ℕ
  | bytes => 0
  | K => 10
  | M => 20
  | G => 30

end SizeUnit

/-- A number with a unit, as it is written. -/
structure SizeText where
  spaces : Bytes
  sign : Sign
  digits : Bytes
  unit : SizeUnit
  suffix : Bytes
  isSpace_spaces : ∀ b ∈ spaces, isSpace b = true
  isDigit_digits : ∀ b ∈ digits, isDigit b = true
  digits_ne_nil : digits ≠ []
  suffix_mem : suffix ∈ unit.spellings

namespace SizeText

def text (t : SizeText) : Bytes := t.spaces ++ (t.sign.spelling ++ (t.digits ++ t.suffix))

/-- The number times its unit. The digits have their weights from the last one on. -/
def value (t : SizeText) : ℤ :=
  t.sign.factor * (Nat.ofDigits 10 (t.digits.reverse.map fun d => (d - chr '0').toNat) * 2 ^ t.unit.bits : ℕ)

end SizeText

/-- The string, all of it, is a number with a unit, and `z` is what this comes to. -/
def Denotes (s : Bytes) (z : ℤ) : Prop := ∃ t : SizeText, t.text = s ∧ t.value = z

/-- Nothing is lost on the way into a field of `w` bits: either the string is refused, or nothing
follows its unit, its number is not below zero, and number times unit fits. -/
def Exact (w : ℕ) (s : CString) : Prop :=
  let n := scan s.bytes
  n.digits ≠ [] → ∀ k ∈ unitShift n.rest.head?,
    n.rest.length ≤ 1 ∧ (n.negative = true → decimal n.digits = 0) ∧ decimal n.digits * 2 ^ k < 2 ^ w

instance decidableExact (w : ℕ) (s : CString) : Decidable (Exact w s) := by
  unfold Exact
  infer_instance

/-! ### The scan -/

section

variable {s spaces digits rest : Bytes}

theorem decimal_eq (digits : Bytes) :
    decimal digits = Nat.ofDigits 10 (digits.reverse.map fun d => (d - chr '0').toNat) := by
  induction digits using List.reverseRecOn with
  | nil => rfl
  | append_singleton digits d ih =>
    have hlast : decimal (digits ++ [d]) = 10 * decimal digits + (d - chr '0').toNat := by
      rw [decimal, List.foldl_append]
      rfl
    rw [hlast, ih, List.reverse_append, List.reverse_singleton, List.singleton_append, List.map_cons,
      Nat.ofDigits_cons]
    exact Nat.add_comm _ _

theorem isDigit_iff {b : UInt8} : isDigit b = true ↔ 48 ≤ b.toNat ∧ b.toNat ≤ 57 := by
  rw [isDigit, Bool.and_eq_true, decide_eq_true_iff, decide_eq_true_iff, UInt8.le_iff_toNat_le,
    UInt8.le_iff_toNat_le]
  exact Iff.rfl

theorem isSpace_iff {b : UInt8} :
    isSpace b = true ↔ b.toNat = 32 ∨ (9 ≤ b.toNat ∧ b.toNat ≤ 13) := by
  rw [isSpace, Bool.or_eq_true, beq_iff_eq, Bool.and_eq_true, decide_eq_true_iff, decide_eq_true_iff,
    UInt8.le_iff_toNat_le, UInt8.le_iff_toNat_le, ← UInt8.toNat_inj]
  exact Iff.rfl

/-- A run of characters ends where the next one is of another kind. -/
theorem takeWhile_dropWhile_append {p : UInt8 → Bool} {xs ys : Bytes} (hxs : ∀ b ∈ xs, p b = true)
    (hys : ∀ b ∈ ys.head?, p b = false) :
    (xs ++ ys).takeWhile p = xs ∧ (xs ++ ys).dropWhile p = ys := by
  have hstop : ys.takeWhile p = [] ∧ ys.dropWhile p = ys := by
    cases ys with
    | nil => exact ⟨rfl, rfl⟩
    | cons b ys =>
      have hb := hys b rfl
      rw [List.takeWhile_cons, List.dropWhile_cons, hb]
      exact ⟨rfl, rfl⟩
  rw [List.takeWhile_append_of_pos hxs, List.dropWhile_append_of_pos hxs, hstop.1, hstop.2,
    List.append_nil]
  exact ⟨rfl, rfl⟩

theorem scanSign_spelling {d : UInt8} (hd : isDigit d = true) (sign : Sign) (t : Bytes) :
    scanSign (sign.spelling ++ d :: t) = (decide (sign = .minus), d :: t) := by
  have hdigit := isDigit_iff.mp hd
  cases sign with
  | none =>
    have hminus : d ≠ chr '-' := by
      rintro rfl
      exact absurd hdigit (by decide)
    have hplus : d ≠ chr '+' := by
      rintro rfl
      exact absurd hdigit (by decide)
    exact (if_neg hminus).trans (if_neg hplus)
  | plus => rfl
  | minus => rfl

/-- The scan finds the parts of a number and what is behind it. -/
theorem scan_append (hspaces : ∀ b ∈ spaces, isSpace b = true) (sign : Sign)
    (hdigits : ∀ b ∈ digits, isDigit b = true) (hne : digits ≠ [])
    (hrest : ∀ b ∈ rest.head?, isDigit b = false) :
    scan (spaces ++ (sign.spelling ++ (digits ++ rest))) = ⟨decide (sign = .minus), digits, rest⟩ := by
  obtain ⟨d, ds, rfl⟩ := List.exists_cons_of_ne_nil hne
  have hd : isDigit d = true := hdigits d List.mem_cons_self
  have hstart : ∀ b ∈ (sign.spelling ++ (d :: ds ++ rest)).head?, isSpace b = false := by
    intro b hb
    refine Bool.eq_false_iff.mpr fun hspace => ?_
    have hspace := isSpace_iff.mp hspace
    -- what follows the spaces is a sign or a digit, and neither is a space
    cases sign with
    | none =>
      obtain rfl : d = b := Option.some.inj hb
      have hdigit := isDigit_iff.mp hd
      omega
    | plus =>
      obtain rfl : chr '+' = b := Option.some.inj hb
      exact absurd hspace (by decide)
    | minus =>
      obtain rfl : chr '-' = b := Option.some.inj hb
      exact absurd hspace (by decide)
  have hrun := takeWhile_dropWhile_append hdigits hrest
  have hsign : scanSign (sign.spelling ++ (d :: ds ++ rest)) = _ := scanSign_spelling hd sign (ds ++ rest)
  rw [scan, (takeWhile_dropWhile_append hspaces hstart).2, hsign]
  exact congrArg₂ (Scan.mk _) hrun.1 hrun.2

theorem exists_sign (t : Bytes) :
    ∃ sign : Sign, t = sign.spelling ++ (scanSign t).2 ∧ (scanSign t).1 = decide (sign = .minus) := by
  cases t with
  | nil => exact ⟨.none, rfl, rfl⟩
  | cons c t =>
    by_cases hminus : c = chr '-'
    · subst hminus
      exact ⟨.minus, rfl, rfl⟩
    · by_cases hplus : c = chr '+'
      · subst hplus
        exact ⟨.plus, rfl, rfl⟩
      · have hnone : scanSign (c :: t) = (false, c :: t) := (if_neg hminus).trans (if_neg hplus)
        rw [hnone]
        exact ⟨.none, rfl, rfl⟩

/-- What is scanned is the string. -/
theorem exists_scan (s : Bytes) :
    ∃ (spaces : Bytes) (sign : Sign), (∀ b ∈ spaces, isSpace b = true) ∧
      spaces ++ (sign.spelling ++ ((scan s).digits ++ (scan s).rest)) = s ∧
      (scan s).negative = decide (sign = .minus) := by
  obtain ⟨sign, htext, hneg⟩ := exists_sign (s.dropWhile isSpace)
  refine ⟨s.takeWhile isSpace, sign, fun b hb => List.mem_takeWhile_imp hb, ?_, hneg⟩
  have hdigits : (scan s).digits ++ (scan s).rest = (scanSign (s.dropWhile isSpace)).2 :=
    List.takeWhile_append_dropWhile
  rw [hdigits, ← htext]
  exact List.takeWhile_append_dropWhile

theorem isDigit_scan (s : Bytes) : ∀ b ∈ (scan s).digits, isDigit b = true :=
  fun _ hb => List.mem_takeWhile_imp hb

theorem unitShift_of_mem {unit : SizeUnit} (h : rest ∈ unit.spellings) :
    unitShift rest.head? = some unit.bits ∧ rest.length ≤ 1 := by
  cases unit <;> simp only [SizeUnit.spellings, List.mem_cons, List.not_mem_nil, or_false] at h
  · subst h; decide
  all_goals rcases h with rfl | rfl <;> decide

theorem exists_unit {k : ℕ} (hk : unitShift rest.head? = some k) (hlen : rest.length ≤ 1) :
    ∃ unit : SizeUnit, rest ∈ unit.spellings ∧ unit.bits = k := by
  rcases rest with - | ⟨c, - | ⟨c', rest⟩⟩
  · exact ⟨.bytes, List.mem_singleton_self _, Option.some.inj hk⟩
  -- one character: it is one of the six letters
  · simp only [List.head?_cons, unitShift] at hk
    split at hk
    · next hc =>
      exact ⟨.K, by rcases hc with rfl | rfl <;> decide, Option.some.inj hk⟩
    · split at hk
      · next hc =>
        exact ⟨.M, by rcases hc with rfl | rfl <;> decide, Option.some.inj hk⟩
      · split at hk
        · next hc =>
          exact ⟨.G, by rcases hc with rfl | rfl <;> decide, Option.some.inj hk⟩
        · cases hk
  · exact absurd hlen (by simp)

/-- No unit begins with a digit. -/
theorem not_isDigit_of_mem {unit : SizeUnit} (h : rest ∈ unit.spellings) :
    ∀ b ∈ rest.head?, isDigit b = false := by
  intro b hb
  cases unit <;> simp only [SizeUnit.spellings, List.mem_cons, List.not_mem_nil, or_false] at h
  · subst h
    cases hb
  all_goals
    rcases h with rfl | rfl
    all_goals
      obtain rfl := Option.some.inj hb
      decide

/-- A string has one reading at most, and the scan finds it. -/
theorem denotes_iff {z : ℤ} : Denotes s z ↔ (scan s).digits ≠ [] ∧ ∃ k,
    unitShift (scan s).rest.head? = some k ∧ (scan s).rest.length ≤ 1 ∧
    z = (if (scan s).negative then -1 else 1) * (decimal (scan s).digits * 2 ^ k : ℕ) := by
  have hfactor : ∀ sign : Sign, sign.factor = if decide (sign = .minus) = true then -1 else 1 := by
    intro sign
    cases sign <;> rfl
  constructor
  · rintro ⟨t, rfl, rfl⟩
    -- the scan takes the reading apart again, so there is no other
    have hscan : scan t.text = ⟨decide (t.sign = .minus), t.digits, t.suffix⟩ :=
      scan_append t.isSpace_spaces t.sign t.isDigit_digits t.digits_ne_nil
        (not_isDigit_of_mem t.suffix_mem)
    obtain ⟨hshift, hlen⟩ := unitShift_of_mem t.suffix_mem
    rw [hscan]
    exact ⟨t.digits_ne_nil, t.unit.bits, hshift, hlen, by rw [SizeText.value, hfactor, ← decimal_eq]⟩
  · rintro ⟨hdigits, k, hshift, hlen, rfl⟩
    obtain ⟨spaces, sign, hspaces, htext, hneg⟩ := exists_scan s
    obtain ⟨unit, hunit, rfl⟩ := exists_unit hshift hlen
    refine ⟨⟨spaces, sign, _, unit, _, hspaces, isDigit_scan s, hdigits, hunit⟩, htext, ?_⟩
    rw [SizeText.value, hfactor, ← decimal_eq, hneg]

end

/-! ### What arrives -/

theorem length_scan_rest {s : Bytes} (h : (scan s).digits ≠ []) : (scan s).rest.length < s.length := by
  obtain ⟨spaces, sign, -, htext, -⟩ := exists_scan s
  have hlen := congrArg List.length htext
  have hpos := List.length_pos_iff.mpr h
  simp only [List.length_append] at hlen
  omega

/-- `parse_size` accepts a string with digits and a unit or nothing behind them. -/
theorem parseSize_ok_iff {s : CString} {v : UInt64} : parseSize s = .ok v ↔
    (scan s.bytes).digits ≠ [] ∧ ∃ k, unitShift (scan s.bytes).rest.head? = some k ∧
      v = (strtoull s.bytes).1 <<< UInt64.ofNat k := by
  by_cases hdigits : (scan s.bytes).digits = []
  · have hnone : strtoull s.bytes = (0, s.bytes) := if_pos hdigits
    rw [parseSize, hnone, if_pos rfl]
    exact ⟨fun h => absurd h nofun, fun h => absurd hdigits h.1⟩
  · have hrest : (strtoull s.bytes).2 = (scan s.bytes).rest := by
      rw [strtoull, if_neg hdigits]
      split <;> rfl
    -- with digits the end pointer has moved, so the first check passes
    have hmoved : (scan s.bytes).rest ≠ s.bytes := by
      intro heq
      exact absurd (congrArg List.length heq) (length_scan_rest hdigits).ne
    rw [parseSize, hrest, if_neg hmoved]
    cases hshift : unitShift (scan s.bytes).rest.head? with
    | none => exact ⟨fun h => absurd h nofun, fun ⟨_, _, hk, _⟩ => absurd hk nofun⟩
    | some k =>
      constructor
      · intro h
        exact ⟨hdigits, k, rfl, (Except.ok.inj h).symm⟩
      · rintro ⟨-, _, hk, rfl⟩
        rw [Option.some.inj hk]

theorem unitShift_le {c : Option UInt8} {k : ℕ} (h : unitShift c = some k) : k ≤ 30 := by
  cases c with
  | none =>
    obtain rfl : 0 = k := Option.some.inj h
    decide
  | some c =>
    simp only [unitShift] at h
    split_ifs at h <;> cases h <;> decide

/-- Where nothing is lost, the shifted value is number times unit. -/
theorem toNat_strtoull_shift {s : Bytes} {k : ℕ} (hk : k ≤ 30) (hdigits : (scan s).digits ≠ [])
    (hneg : (scan s).negative = true → decimal (scan s).digits = 0)
    (hlt : decimal (scan s).digits * 2 ^ k < 2 ^ 64) :
    ((strtoull s).1 <<< UInt64.ofNat k).toNat = decimal (scan s).digits * 2 ^ k := by
  have hnumber : decimal (scan s).digits < 2 ^ 64 :=
    lt_of_le_of_lt (Nat.le_mul_of_pos_right _ (Nat.two_pow_pos k)) hlt
  have hvalue : (strtoull s).1.toNat = decimal (scan s).digits := by
    rw [strtoull, if_neg hdigits, if_neg (Nat.not_le.mpr hnumber)]
    cases hsign : (scan s).negative with
    | false => exact UInt64.toNat_ofNat_of_lt' hnumber
    | true =>
      -- minus zero is zero
      rw [hneg hsign]
      rfl
  have hcount : (UInt64.ofNat k).toNat % 64 = k := by
    rw [UInt64.toNat_ofNat_of_lt' (lt_of_le_of_lt hk (by decide))]
    omega
  rw [UInt64.toNat_shiftLeft, hvalue, hcount, Nat.shiftLeft_eq, Nat.mod_eq_of_lt hlt]

/-- What an accepted string leaves in a field of `w` bits is what it says, exactly if nothing is
lost. -/
theorem parseSize_exact_iff {w : ℕ} (hw : w ≤ 64) (s : CString) :
    (∀ v, parseSize s = .ok v → Denotes s.bytes (v.toNat % 2 ^ w : ℕ)) ↔ Exact w s := by
  constructor
  · intro h hdigits k hshift
    obtain ⟨-, k', hshift', hlen, hz⟩ := denotes_iff.mp (h _ (parseSize_ok_iff.mpr ⟨hdigits, k, hshift, rfl⟩))
    obtain rfl : k = k' := Option.some.inj (hshift.symm.trans hshift')
    have hfits := Nat.mod_lt ((strtoull s.bytes).1 <<< UInt64.ofNat k).toNat (Nat.two_pow_pos w)
    generalize ((strtoull s.bytes).1 <<< UInt64.ofNat k).toNat % 2 ^ w = field at hz hfits
    -- the field is not negative and has `w` bits, so what the string says is so too
    cases hsign : (scan s.bytes).negative with
    | false =>
      rw [hsign, if_neg Bool.false_ne_true, one_mul, Nat.cast_inj] at hz
      exact ⟨hlen, fun h => absurd h Bool.false_ne_true, hz ▸ hfits⟩
    | true =>
      rw [hsign, if_pos rfl] at hz
      have hzero : decimal (scan s.bytes).digits * 2 ^ k = 0 := by omega
      refine ⟨hlen, fun _ => ?_, ?_⟩
      · exact (Nat.mul_eq_zero.mp hzero).resolve_right (Nat.two_pow_pos k).ne'
      · rw [hzero]
        exact Nat.two_pow_pos w
  · intro h v hv
    obtain ⟨hdigits, k, hshift, rfl⟩ := parseSize_ok_iff.mp hv
    obtain ⟨hlen, hneg, hlt⟩ := h hdigits k hshift
    have hlt64 := lt_of_lt_of_le hlt (Nat.pow_le_pow_right (by decide) hw)
    refine denotes_iff.mpr ⟨hdigits, k, hshift, hlen, ?_⟩
    rw [toNat_strtoull_shift (unitShift_le hshift) hdigits hneg hlt64, Nat.mod_eq_of_lt hlt]
    cases hsign : (scan s.bytes).negative with
    | false => rw [if_neg Bool.false_ne_true, one_mul]
    | true =>
      rw [hneg hsign, Nat.zero_mul]
      rfl

/-! ### The fields -/

section

variable {atoi : Bytes → Int32} {cfg cfg' : Options} {s : CString}

theorem assign_size_iff : cfg.assign atoi .size s = .ok cfg' ↔
    ∃ v, parseSize s = .ok v ∧ cfg' = { cfg with size := v } := by
  rw [Options.assign]
  cases parseSize s with
  | ok v => simp only [Except.ok.injEq, exists_eq_left', eq_comm]
  | error e => simp only [reduceCtorEq, false_and, exists_false]

theorem assign_bs_iff : cfg.assign atoi .bs s = .ok cfg' ↔
    ∃ v, parseSize s = .ok v ∧ cfg' = { cfg with bs := v.toUInt32 } := by
  rw [Options.assign]
  cases parseSize s with
  | ok v => simp only [Except.ok.injEq, exists_eq_left', eq_comm]
  | error e => simp only [reduceCtorEq, false_and, exists_false]

end

theorem assign_size_exact_iff (atoi : Bytes → Int32) (cfg : Options) (s : CString) :
    (∀ cfg', cfg.assign atoi .size s = .ok cfg' → Denotes s.bytes cfg'.size.toNat) ↔ Exact 64 s := by
  have hfull : ∀ v : UInt64, v.toNat % 2 ^ 64 = v.toNat := fun v => Nat.mod_eq_of_lt v.toNat_lt
  rw [← parseSize_exact_iff le_rfl]
  simp only [hfull]
  constructor
  · intro h v hv
    exact h _ (assign_size_iff.mpr ⟨v, hv, rfl⟩)
  · intro h cfg' hcfg
    obtain ⟨v, hv, rfl⟩ := assign_size_iff.mp hcfg
    exact h v hv

theorem assign_bs_exact_iff (atoi : Bytes → Int32) (cfg : Options) (s : CString) :
    (∀ cfg', cfg.assign atoi .bs s = .ok cfg' → Denotes s.bytes cfg'.bs.toNat) ↔ Exact 32 s := by
  have hcast : ∀ v : UInt64, v.toUInt32.toNat = v.toNat % 2 ^ 32 := fun v => UInt64.toNat_toUInt32 v
  rw [← parseSize_exact_iff (by decide)]
  simp only [← hcast]
  constructor
  · intro h v hv
    exact h _ (assign_bs_iff.mpr ⟨v, hv, rfl⟩)
  · intro h cfg' hcfg
    obtain ⟨v, hv, rfl⟩ := assign_bs_iff.mp hcfg
    exact h v hv

/-- **Size arguments mean what they say**, as far as they are accepted, exactly if nothing is lost in
the 64 bits of `size` and in the 32 bits of `bs`. -/
theorem size_args_exact_iff (atoi : Bytes → Int32) (cfg : Options) (s : CString) :
    ((∀ cfg', cfg.assign atoi .size s = .ok cfg' → Denotes s.bytes cfg'.size.toNat) ↔ Exact 64 s) ∧
    ((∀ cfg', cfg.assign atoi .bs s = .ok cfg' → Denotes s.bytes cfg'.bs.toNat) ↔ Exact 32 s) :=
  ⟨assign_size_exact_iff atoi cfg s, assign_bs_exact_iff atoi cfg s⟩

/-- A string literal as an argument. -/
def arg (s : String) (h : 0 ∉ ascii s := by decide) : CString := ⟨ascii s, h⟩

example : Exact 64 (arg " +12M") ∧ Exact 32 (arg "64k") ∧ Exact 32 (arg "4X") := by decide

/-- One string for each place: saturated, shifted out, negated, followed by more, and truncated. The
first four are sizes of 2^64 - 1, 0, 2^64 - 1 and 4096 bytes, the last is a block of one byte. -/
theorem sizes_lost :
    (∀ s ∈ [arg "18446744073709551616", arg "17179869184G", arg "-1", arg "4Kfoo"],
      ¬ ∀ cfg', Options.assign (fun _ => 0) {} .size s = .ok cfg' → Denotes s.bytes cfg'.size.toNat) ∧
    ¬ ∀ cfg', Options.assign (fun _ => 0) {} .bs (arg "4294967297") = .ok cfg' →
      Denotes (arg "4294967297").bytes cfg'.bs.toNat := by
  constructor
  · intro s hs h
    have hlost : ∀ s ∈ [arg "18446744073709551616", arg "17179869184G", arg "-1", arg "4Kfoo"],
        ¬ Exact 64 s := by decide
    exact hlost s hs ((assign_size_exact_iff _ _ s).mp h)
  · intro h
    exact absurd ((assign_bs_exact_iff _ _ _).mp h) (by decide)

/-! ### Command lines -/

/-- The last string that is given to a flag. -/
def given (flag : Flag) : List (Flag × CString) → Option CString
  | [] => none
  | (f, s) :: settings => given flag settings <|> if f = flag then some s else none

/-- The arguments of the command line: each flag and its string. -/
def spelled (settings : List (Flag × CString)) : List Bytes :=
  settings.flatMap fun p => [p.1.name, p.2.bytes]

section

variable {atoi : Bytes → Int32} {cfg cfg' : Options}

theorem exceptBind_ok {ε α β : Type} {x : Except ε α} {f : α → Except ε β} {b : β} :
    x >>= f = .ok b ↔ ∃ a, x = .ok a ∧ f a = .ok b := by
  cases x with
  | ok a => exact ⟨fun h => ⟨a, rfl, h⟩, fun ⟨a', ha, h⟩ => Except.ok.inj ha ▸ h⟩
  | error e => exact ⟨fun h => absurd h nofun, fun ⟨_, h, _⟩ => absurd h nofun⟩

/-- A command line that the loop accepts is a list of settings, which are made in their order. -/
theorem argLoop_ok {args : List CString} (h : argLoop atoi args cfg = .ok cfg') :
    ∃ settings, args.map CString.bytes = spelled settings ∧
      settings.foldlM (fun c p => Options.assign atoi c p.1 p.2) cfg = .ok cfg' := by
  fun_induction argLoop atoi args cfg with
  | case1 cfg => exact ⟨[], rfl, h⟩
  | case2 => cases h
  | case3 a s args cfg flag hfind ih =>
    obtain ⟨c, hassign, hrest⟩ := exceptBind_ok.mp h
    obtain ⟨settings, hargs, hfold⟩ := ih c hrest
    -- the flag that is found has the name that was given
    have hfound := List.find?_some hfind
    have hname : flag.name = a.bytes := of_decide_eq_true hfound
    refine ⟨(flag, s) :: settings, ?_, ?_⟩
    · rw [List.map_cons, List.map_cons, hargs, ← hname]
      rfl
    · rw [List.foldlM_cons, hassign]
      exact hfold
  | case4 => cases h

/-- A field that only one flag assigns comes from the last string of this flag. -/
theorem field_of_settings {β : Type} (field : Options → β) (flag : Flag) (R : CString → β → Prop)
    (hset : ∀ {c s c'}, Options.assign atoi c flag s = .ok c' → R s (field c'))
    (hkeep : ∀ {c f s c'}, Options.assign atoi c f s = .ok c' → f ≠ flag → field c' = field c)
    {settings : List (Flag × CString)}
    (h : settings.foldlM (fun c p => Options.assign atoi c p.1 p.2) cfg = .ok cfg') :
    (given flag settings = none ∧ field cfg' = field cfg) ∨
      ∃ s, given flag settings = some s ∧ R s (field cfg') := by
  induction settings generalizing cfg with
  | nil =>
    obtain rfl : cfg = cfg' := Except.ok.inj h
    exact .inl ⟨rfl, rfl⟩
  | cons p settings ih =>
    obtain ⟨f, s⟩ := p
    rw [List.foldlM_cons] at h
    obtain ⟨c, hassign, hrest⟩ := exceptBind_ok.mp h
    rcases ih hrest with ⟨hgiven, hfield⟩ | ⟨s', hgiven, hR⟩
    -- nothing behind it assigns the field, so it is this one or none
    · by_cases hf : f = flag
      · subst hf
        refine .inr ⟨s, ?_, hfield ▸ hset hassign⟩
        simp [given, hgiven]
      · refine .inl ⟨?_, hfield.trans (hkeep hassign hf)⟩
        simp [given, hgiven, hf]
    · refine .inr ⟨s', ?_, hR⟩
      simp [given, hgiven]

/-- No other flag touches the sizes. -/
theorem assign_keeps {f : Flag} {s : CString} (h : Options.assign atoi cfg f s = .ok cfg') :
    (f ≠ .size → cfg'.size = cfg.size) ∧ (f ≠ .bs → cfg'.bs = cfg.bs) := by
  cases f with
  | bs =>
    obtain ⟨v, -, rfl⟩ := assign_bs_iff.mp h
    exact ⟨fun _ => rfl, fun hne => absurd rfl hne⟩
  | size =>
    obtain ⟨v, -, rfl⟩ := assign_size_iff.mp h
    exact ⟨fun hne => absurd rfl hne, fun _ => rfl⟩
  | stable =>
    simp only [Options.assign] at h
    split_ifs at h <;> cases h <;> exact ⟨fun _ => rfl, fun _ => rfl⟩
  | _ =>
    cases h
    exact ⟨fun _ => rfl, fun _ => rfl⟩

/-- The value of an accepted string is what it says exactly if nothing is lost. -/
theorem parsed_denotes_iff {s : CString} {v : UInt64} (h : parseSize s = .ok v) {w : ℕ} (hw : w ≤ 64) :
    Denotes s.bytes (v.toNat % 2 ^ w : ℕ) ↔ Exact w s := by
  rw [← parseSize_exact_iff hw]
  constructor
  · intro hd v' hv'
    obtain rfl : v = v' := Except.ok.inj (h.symm.trans hv')
    exact hd
  · intro hall
    exact hall v h

/-- `main` goes on with sizes that are not zero. -/
theorem configure_ok {args : List CString} (h : configure atoi args = .ok cfg) :
    argLoop atoi args {} = .ok cfg ∧ cfg.toBenchConfig.Accepted := by
  obtain ⟨c, hloop, hchecks⟩ := exceptBind_ok.mp h
  split_ifs at hchecks with hempty hzero
  obtain rfl : c = cfg := Except.ok.inj hchecks
  simp only [not_or] at hzero
  exact ⟨hloop, UInt32.pos_iff_ne_zero.mpr hzero.1, UInt64.pos_iff_ne_zero.mpr hzero.2.1⟩

end

/-- Where a size comes from: from the last string of its flag, and then it is what this string says
exactly if nothing is lost, or else it is the default. -/
def ComesFrom (w default value : ℕ) : Option CString → Prop
  | none => value = default
  | some s => Denotes s.bytes value ↔ Exact w s

/-- **The sizes of a run** of the benchmark. -/
theorem configure_sizes {atoi : Bytes → Int32} {args : List CString} {cfg : Options}
    (h : configure atoi args = .ok cfg) :
    cfg.toBenchConfig.Accepted ∧ ∃ settings, args.map CString.bytes = spelled settings ∧
      ComesFrom 64 (2 ^ 30) cfg.size.toNat (given .size settings) ∧
      ComesFrom 32 65536 cfg.bs.toNat (given .bs settings) := by
  obtain ⟨hloop, haccepted⟩ := configure_ok h
  obtain ⟨settings, hargs, hfold⟩ := argLoop_ok hloop
  refine ⟨haccepted, settings, hargs, ?_, ?_⟩
  · have hsize := field_of_settings (fun c => c.size) .size (fun s v => parseSize s = .ok v)
      (fun hassign => by
        obtain ⟨v, hv, rfl⟩ := assign_size_iff.mp hassign
        exact hv)
      (fun hassign => (assign_keeps hassign).1) hfold
    rcases hsize with ⟨hnone, hdefault⟩ | ⟨s, hsome, hparse⟩
    · rw [hnone]
      exact congrArg UInt64.toNat hdefault
    · rw [hsome]
      have hfull : cfg.size.toNat % 2 ^ 64 = cfg.size.toNat := Nat.mod_eq_of_lt cfg.size.toNat_lt
      exact hfull ▸ parsed_denotes_iff hparse le_rfl
  -- the block size is the same value, cut to 32 bits
  · have hbs := field_of_settings (fun c => c.bs) .bs (fun s n => ∃ v, parseSize s = .ok v ∧ n = v.toUInt32)
      (fun hassign => by
        obtain ⟨v, hv, rfl⟩ := assign_bs_iff.mp hassign
        exact ⟨v, hv, rfl⟩)
      (fun hassign => (assign_keeps hassign).2) hfold
    rcases hbs with ⟨hnone, hdefault⟩ | ⟨s, hsome, v, hparse, hcast⟩
    · rw [hnone]
      exact congrArg UInt32.toNat hdefault
    · rw [hsome, hcast]
      exact parsed_denotes_iff hparse (by decide)

end Bench

end NfsClient
