import NfsClient.Xdr.Codec

/-!
# Round trip over whole messages

A message is a list of typed items put one after another on one `XdrEncoder`; a decoder that asks
for the same types in the same order gets the items back and stands at the first byte after them.
The induction is on the list of items: each item starts where the padding of the one before it
ends, so all that an item has to contribute is its own `Reads`.
-/

namespace NfsClient

open Xdr Reader

/-- One item of a message, as handed to the encoder. -/
inductive XdrItem
  | uint32 (v : UInt32)
  | uint64 (v : UInt64)
  | opaqueData (data : Bytes)
  | string (s : Bytes)
  | fixedOpaque (data : Bytes)
  deriving DecidableEq, Repr

/-- What a decoder asks for. -/
inductive XdrType
  | uint32
  | uint64
  | opaqueData
  | string
  | fixedOpaque (n : ℕ)
  deriving DecidableEq, Repr

namespace XdrItem

/-- The type of an item; a fixed-length opaque carries its length in the type. -/
def type : XdrItem → XdrType
  | uint32 _ => .uint32
  | uint64 _ => .uint64
  | opaqueData _ => .opaqueData
  | string _ => .string
  | fixedOpaque data => .fixedOpaque data.length

/-- The encoder call for an item. -/
def put : XdrItem → Bytes
  | uint32 v => putUint32 v
  | uint64 v => putUint64 v
  | opaqueData data => putOpaque data
  | string s => putString s
  | fixedOpaque data => putFixedOpaque data

/-- The length prefix of a variable-length item has 32 bits. -/
def Fits : XdrItem → Prop
  | opaqueData data => data.length < 2 ^ 32
  | string s => s.length < 2 ^ 32
  | _ => True

end XdrItem

/-- The decoder call for a type. -/
def XdrType.get : XdrType → XdrDecoder XdrItem
  | .uint32 => .uint32 <$> getUint32
  | .uint64 => .uint64 <$> getUint64
  | .opaqueData => .opaqueData <$> getOpaque
  | .string => .string <$> getString
  | .fixedOpaque n => .fixedOpaque <$> getFixedOpaque n

/-- The bytes of one `XdrEncoder` after the items have been put on it in order. -/
def encodeItems (items : List XdrItem) : Bytes :=
  items.foldl (fun buf item => buf ++ item.put) []

/-- One `XdrDecoder` asked for the types in order. -/
def decodeItems : List XdrType → XdrDecoder (List XdrItem)
  | [] => return []
  | t :: ts => do
    let item ← t.get
    let items ← decodeItems ts
    return item :: items

theorem encodeItems_eq (items : List XdrItem) : encodeItems items = items.flatMap XdrItem.put := by
  have key : ∀ (items : List XdrItem) (buf : Bytes),
      items.foldl (fun buf item => buf ++ item.put) buf = buf ++ items.flatMap XdrItem.put := by
    intro items
    induction items with
    | nil => simp
    | cons item items ih => intro buf; simp [ih]
  exact key items []

theorem XdrItem.get_reads {item : XdrItem} (h : item.Fits) : Reads item.type.get item.put item := by
  cases item with
  | uint32 v =>
    rw [put, putUint32_eq]
    exact (getUint32_reads v).map _
  | uint64 v =>
    rw [put, putUint64_eq]
    exact (getUint64_reads v).map _
  | opaqueData data =>
    rw [put, putOpaque_eq]
    exact (getOpaque_reads h).map _
  | string s =>
    rw [put, putString_eq]
    exact (getOpaque_reads h).map _
  | fixedOpaque data => exact (getFixedOpaque_reads rfl).map _

theorem decodeItems_reads {items : List XdrItem} (h : ∀ item ∈ items, item.Fits) :
    Reads (decodeItems (items.map XdrItem.type)) (encodeItems items) items := by
  rw [encodeItems_eq]
  induction items with
  | nil => exact Reads.pure []
  | cons item items ih =>
    have hitem := XdrItem.get_reads (h item List.mem_cons_self)
    have hitems := ih fun i hi => h i (List.mem_cons_of_mem item hi)
    exact hitem.bind (hitems.bind_nil (Reads.pure _))

theorem XdrItem.four_dvd_length_put (item : XdrItem) : 4 ∣ item.put.length := by
  have hpad := length_add_padLen
  cases item with
  | uint32 v => exact dvd_refl 4
  | uint64 v => exact ⟨2, rfl⟩
  | opaqueData data =>
    rw [put, putOpaque_eq, length_varOpaque]
    exact (dvd_refl 4).add (hpad _)
  | string s =>
    rw [put, putString_eq, length_varOpaque]
    exact (dvd_refl 4).add (hpad _)
  | fixedOpaque data =>
    rw [put, putFixedOpaque_eq, length_fixedOpaque]
    exact hpad _

theorem four_dvd_length_encodeItems (items : List XdrItem) : 4 ∣ (encodeItems items).length := by
  rw [encodeItems_eq]
  induction items with
  | nil => exact dvd_zero 4
  | cons item items ih =>
    rw [List.flatMap_cons, List.length_append]
    exact item.four_dvd_length_put.add ih

/-- **Round trip.** The decoder gets the items back in order and leaves exactly the bytes that
follow them; the encoder is at a multiple of four after every item. -/
theorem decode_encode_items (items : List XdrItem) (h : ∀ item ∈ items, item.Fits)
    (suffix : Bytes) :
    (do
      let decoded ← decodeItems (items.map XdrItem.type)
      let rest ← getRemaining
      return (decoded, rest) : XdrDecoder (List XdrItem × Bytes)) (encodeItems items ++ suffix)
        = .ok ((items, suffix), []) ∧
      ∀ k, 4 ∣ (encodeItems (items.take k)).length := by
  refine ⟨?_, fun k => four_dvd_length_encodeItems _⟩
  rw [bind_of_ok (decodeItems_reads h suffix)]
  rfl

theorem decode_encode_items_mixed :
    (do
      let decoded ← decodeItems [.string, .uint32, .fixedOpaque 3]
      let rest ← getRemaining
      return (decoded, rest) : XdrDecoder (List XdrItem × Bytes))
        (encodeItems [.string (ascii "abcde"), .uint32 7, .fixedOpaque [1, 2, 3]] ++ [9, 9])
        = .ok (([.string (ascii "abcde"), .uint32 7, .fixedOpaque [1, 2, 3]], [9, 9]), []) ∧
      ∀ k, 4 ∣ (encodeItems ([.string (ascii "abcde"), .uint32 7,
        .fixedOpaque [1, 2, 3]].take k)).length :=
  decode_encode_items [.string (ascii "abcde"), .uint32 7, .fixedOpaque [1, 2, 3]]
    (by
      intro item hitem
      fin_cases hitem
      · change (ascii "abcde").length < 2 ^ 32
        decide
      · trivial
      · trivial)
    [9, 9]

end NfsClient
