import Mathlib.Data.BitVec
import Mathlib.Data.List.Basic

/-!
# The decoder for EM4100 tags

`em4100_putbit` takes one bit after the other: nine ones, ten rows of a nibble and its parity, the
parities of the columns and a stop bit.  Where the bits and the annotations stand is left out.
-/

namespace SigrokDecode

open List

inductive Em4100State
  | header
  | payload
  | trailer
  deriving DecidableEq

inductive Em4100Ann
  | bit (bit : Bool)
  | header
  | versionCustomer (nibble : Nat)
  | data (nibble : Nat)
  | rowParity (ok : Bool)
  | stopBit
  | colParity (i : Nat) (ok : Bool)
  | tag (tag : Nat)
  deriving DecidableEq

/-- `em4100_state`, as far as the bits need it. -/
structure Em4100 where
  state : Em4100State
  firstOne : Nat
  data : Nat
  dataBits : Nat
  dataParity : Bool
  payloadCnt : Nat
  dataColParity : List Bool
  colParity : List Bool
  tag : Nat
  allRowParityOk : Bool
  anns : List Em4100Ann

namespace Em4100

/-- `em4100_reset`. -/
def start : Em4100 :=
  { state := .header
    firstOne := 0
    data := 0
    dataBits := 0
    dataParity := false
    payloadCnt := 0
    dataColParity := List.replicate 6 false
    colParity := List.replicate 6 false
    tag := 0
    allRowParityOk := true
    anns := [] }

def put (s : Em4100) (anns : List Em4100Ann) : Em4100 :=
  { s with anns := s.anns ++ anns }

def headerBit (s : Em4100) (bit : Bool) : Em4100 :=
  if bit then
    let firstOne := if 0 < s.firstOne then s.firstOne + 1 else s.firstOne
    if firstOne = 9 then { s with firstOne := 0, state := .payload }.put [.header]
    else { s with firstOne := if firstOne = 0 then 1 else firstOne }
  else { s with firstOne := 0 }

def countBit (s : Em4100) : Em4100 :=
  let s := { s with payloadCnt := s.payloadCnt + 1 }
  let s := if s.dataBits = 0 then { s with data := 0, dataParity := false } else s
  { s with dataBits := s.dataBits + 1 }

def payloadBit (s : Em4100) (bit : Bool) : Em4100 :=
  let s := s.countBit
  let s :=
    if s.dataBits = 5 then
      let s := s.put
        [if s.payloadCnt ≤ 10 then .versionCustomer s.data else .data s.data,
          .rowParity (s.dataParity == bit)]
      let s := { s with
        allRowParityOk := s.allRowParityOk && s.dataParity == bit
        tag := (s.tag <<< 4 ||| s.data) % 2 ^ 64
        dataBits := 0 }
      if s.payloadCnt = 50 then { s with state := .trailer, payloadCnt := 0 } else s
    else s
  { s with
    dataParity := s.dataParity ^^ bit
    dataColParity := s.dataColParity.set s.dataBits (s.dataColParity.getD s.dataBits false ^^ bit)
    data := s.data <<< 1 ||| bit.toNat }

def colOk (s : Em4100) (i : Nat) : Bool :=
  s.dataColParity.getD i false == s.colParity.getD i false

def trailerBit (s : Em4100) (bit : Bool) : Em4100 :=
  let s := s.countBit
  let s := { s with colParity := s.colParity.set s.dataBits bit }
  if s.dataBits = 5 then
    let s := s.put (.stopBit :: (List.range' 1 4).map fun i => .colParity i (s.colOk i))
    let s :=
      if (List.range' 1 4).all s.colOk && s.allRowParityOk then s.put [.tag s.tag] else s
    let s := { s with tag := 0, dataBits := 0 }
    if s.payloadCnt = 5 then
      { s with
        state := .header
        payloadCnt := 0
        dataColParity := List.replicate 6 false
        colParity := List.replicate 6 false
        allRowParityOk := true }
    else s
  else s

def putbit (s : Em4100) (bit : Bool) : Em4100 :=
  let s := s.put [.bit bit]
  match s.state with
  | .header => s.headerBit bit
  | .payload => s.payloadBit bit
  | .trailer => s.trailerBit bit

end Em4100

structure Em4100Row where
  nibble : BitVec 4
  parity : Bool

namespace Em4100Row

def bits (row : Em4100Row) : List Bool :=
  (List.range 4).map row.nibble.getMsbD ++ [row.parity]

def even (row : Em4100Row) : Bool :=
  row.bits.count true % 2 == 0

/-- The annotations for the row with index `i`. -/
def anns (i : Nat) (row : Em4100Row) : List Em4100Ann :=
  row.bits.map .bit ++
    [if i < 2 then .versionCustomer row.nibble.toNat else .data row.nibble.toNat,
      .rowParity row.even]

end Em4100Row

structure Em4100Block where
  rows : List Em4100Row
  columns : BitVec 4
  stop : Bool
  length_rows : rows.length = 10

namespace Em4100Block

variable (block : Em4100Block)

def bits : List Bool :=
  List.replicate 9 true ++ block.rows.flatMap Em4100Row.bits ++
    ((List.range 4).map block.columns.getMsbD ++ [block.stop])

def value : Nat :=
  block.rows.foldl (fun value row => 16 * value + row.nibble.toNat) 0

def columnSums : BitVec 4 :=
  block.rows.foldl (fun sums row => sums ^^^ row.nibble) 0

/-- The column with index `i` has an even number of ones, its parity bit included. -/
def columnEven (i : Nat) : Bool :=
  block.columnSums.getMsbD i == block.columns.getMsbD i

def valid : Bool :=
  block.rows.all Em4100Row.even && (List.range 4).all block.columnEven

def anns : List Em4100Ann :=
  (List.replicate 9 (Em4100Ann.bit true) ++ [.header]) ++
    block.rows.zipIdx.flatMap (fun row => row.1.anns row.2) ++
    (((List.range 4).map block.columns.getMsbD ++ [block.stop]).map Em4100Ann.bit ++
      [Em4100Ann.stopBit] ++
      (List.range 4).map (fun i => Em4100Ann.colParity (i + 1) (block.columnEven i)) ++
      (if block.valid then [Em4100Ann.tag block.value] else []))

end Em4100Block

namespace Em4100

/-- The state in which a header is searched, with nothing left of a block before. -/
structure Clean (s : Em4100) : Prop where
  state : s.state = .header
  firstOne : s.firstOne = 0
  dataBits : s.dataBits = 0
  payloadCnt : s.payloadCnt = 0
  dataColParity : s.dataColParity = List.replicate 6 false
  colParity : s.colParity = List.replicate 6 false
  tag : s.tag = 0
  allRowParityOk : s.allRowParityOk = true

/-- Some rows have been read; behind the tenth row the trailer is next. -/
structure Rows (count value : Nat) (sums : BitVec 4) (ok : Bool) (s : Em4100) : Prop where
  state : s.state = if count < 10 then .payload else .trailer
  firstOne : s.firstOne = 0
  dataBits : s.dataBits = 0
  payloadCnt : s.payloadCnt = if count < 10 then 5 * count else 0
  dataColParity : ∃ parities, s.dataColParity =
    parities :: ((List.range 4).map sums.getMsbD ++ [false])
  colParity : s.colParity = List.replicate 6 false
  tag : s.tag = value
  allRowParityOk : s.allRowParityOk = ok

variable {s : Em4100}

/-- The ones at the end of some bits, with those in front of them. -/
def onesBehind (count : Nat) (bits : List Bool) : Nat :=
  bits.foldl (fun count bit => if bit then count + 1 else 0) count

/-- No nine ones follow each other. -/
def searching : Nat → List Bool → Bool
  | _, [] => true
  | count, bit :: bits =>
      let count := if bit then count + 1 else 0
      decide (count < 9) && searching count bits

theorem putbit_header (state : s.state = .header) {bit : Bool}
    (few : (if bit then s.firstOne + 1 else 0) < 9) :
    s.putbit bit =
      { s with
        firstOne := if bit then s.firstOne + 1 else 0
        anns := s.anns ++ [Em4100Ann.bit bit] } := by
  rw [putbit]
  simp only [put, state]
  cases bit with
  | false => simp [headerBit]
  | true =>
      rw [if_pos rfl] at few
      rcases Nat.eq_zero_or_pos s.firstOne with zero | some
      · simp [headerBit, zero]
      · have more : s.firstOne + 1 ≠ 9 := by omega
        simp [headerBit, some, more]

theorem foldl_searching (state : s.state = .header) {bits : List Bool}
    (search : searching s.firstOne bits = true) :
    bits.foldl putbit s =
      { s with
        firstOne := onesBehind s.firstOne bits
        anns := s.anns ++ bits.map .bit } := by
  induction bits generalizing s with
  | nil =>
      rw [map_nil, List.append_nil]
      rfl
  | cons bit bits ih =>
      rw [searching, Bool.and_eq_true, decide_eq_true_eq] at search
      rw [foldl_cons, putbit_header state search.1, ih (by exact state) search.2,
        map_cons]
      dsimp only
      rw [List.append_assoc]
      rfl

theorem foldl_header (clean : s.Clean) : Rows 0 0 0 true ((replicate 9 true).foldl putbit s) ∧
      ((replicate 9 true).foldl putbit s).anns =
        s.anns ++ (replicate 9 (Em4100Ann.bit true) ++ [.header]) := by
  have search : searching s.firstOne (replicate 8 true) = true := by
    rw [clean.firstOne]
    rfl
  have eight : onesBehind s.firstOne (replicate 8 true) = 8 := by
    rw [clean.firstOne]
    rfl
  have split : replicate 9 true = replicate 8 true ++ [true] := rfl
  rw [split, foldl_append, foldl_searching clean.state search, eight, foldl_cons, foldl_nil]
  simp only [putbit, put, clean.state, headerBit]
  refine ⟨{ clean with
      state := rfl
      firstOne := rfl
      dataColParity := ⟨false, clean.dataColParity⟩ }, ?_⟩
  show s.anns ++ _ ++ _ ++ _ = _
  rw [List.append_assoc, List.append_assoc]
  rfl

theorem putbit_nibble (state : s.state = .payload) (few : s.dataBits < 4) (bit : Bool) :
    s.putbit bit =
      { s with
        payloadCnt := s.payloadCnt + 1
        dataBits := s.dataBits + 1
        dataParity := (if s.dataBits = 0 then false else s.dataParity) ^^ bit
        dataColParity := s.dataColParity.set (s.dataBits + 1)
          (s.dataColParity.getD (s.dataBits + 1) false ^^ bit)
        data := (if s.dataBits = 0 then 0 else s.data) <<< 1 ||| bit.toNat
        anns := s.anns ++ [Em4100Ann.bit bit] } := by
  have more : s.dataBits + 1 ≠ 5 := by omega
  rw [putbit]
  simp only [put, state]
  rcases Nat.eq_zero_or_pos s.dataBits with zero | some
  · simp [payloadBit, countBit, zero]
  · simp [payloadBit, countBit, Nat.ne_of_gt some, more]

theorem putbit_parity (state : s.state = .payload) (four : s.dataBits = 4) (bit : Bool) :
    s.putbit bit =
      { s with
        state := if s.payloadCnt + 1 = 50 then .trailer else .payload
        payloadCnt := if s.payloadCnt + 1 = 50 then 0 else s.payloadCnt + 1
        dataBits := 0
        dataParity := s.dataParity ^^ bit
        dataColParity := s.dataColParity.set 0 (s.dataColParity.getD 0 false ^^ bit)
        data := s.data <<< 1 ||| bit.toNat
        tag := (s.tag <<< 4 ||| s.data) % 2 ^ 64
        allRowParityOk := s.allRowParityOk && s.dataParity == bit
        anns := s.anns ++ [Em4100Ann.bit bit] ++
          [if s.payloadCnt + 1 ≤ 10 then .versionCustomer s.data else .data s.data,
            .rowParity (s.dataParity == bit)] } := by
  rw [putbit]
  simp only [put, state]
  by_cases last : s.payloadCnt + 1 = 50
  · simp [payloadBit, countBit, put, four, last]
  · simp [payloadBit, countBit, put, four, last]

theorem foldl_nibble (state : s.state = .payload) (fresh : s.dataBits = 0)
    {parities a b c d e : Bool} (columns : s.dataColParity = [parities, a, b, c, d, e])
    (p q r t : Bool) :
    [p, q, r, t].foldl putbit s =
      { s with
        payloadCnt := s.payloadCnt + 4
        dataBits := 4
        dataParity := p ^^ q ^^ r ^^ t
        dataColParity := [parities, a ^^ p, b ^^ q, c ^^ r, d ^^ t, e]
        data := 8 * p.toNat + 4 * q.toNat + 2 * r.toNat + t.toNat
        anns := s.anns ++ [Em4100Ann.bit p, .bit q, .bit r, .bit t] } := by
  have value : ((p.toNat <<< 1 ||| q.toNat) <<< 1 ||| r.toNat) <<< 1 ||| t.toNat =
      8 * p.toNat + 4 * q.toNat + 2 * r.toNat + t.toNat := by
    revert p q r t
    decide
  rw [foldl_cons, putbit_nibble state (by omega),
    foldl_cons, putbit_nibble (by exact state) (by simp [fresh]),
    foldl_cons, putbit_nibble (by exact state) (by simp [fresh]),
    foldl_cons, putbit_nibble (by exact state) (by simp [fresh]), foldl_nil]
  simp [fresh, columns, ← value]

variable {sums : BitVec 4} {ok : Bool}

theorem foldl_row {count value : Nat}
    (rows : Rows count value sums ok s) (few : count < 10) (small : value < 2 ^ 60)
    (row : Em4100Row) :
    Rows (count + 1) (16 * value + row.nibble.toNat) (sums ^^^ row.nibble) (ok && row.even)
        (row.bits.foldl putbit s) ∧
      (row.bits.foldl putbit s).anns = s.anns ++ row.anns count := by
  obtain ⟨parities, columns⟩ := rows.dataColParity
  have state := rows.state
  have payloadCnt := rows.payloadCnt
  rw [if_pos few] at state payloadCnt
  have nibble := foldl_nibble state rows.dataBits columns (row.nibble.getMsbD 0)
    (row.nibble.getMsbD 1) (row.nibble.getMsbD 2) (row.nibble.getMsbD 3)
  have split : row.bits = [row.nibble.getMsbD 0, row.nibble.getMsbD 1, row.nibble.getMsbD 2,
      row.nibble.getMsbD 3] ++ [row.parity] := rfl
  have number : 8 * (row.nibble.getMsbD 0).toNat + 4 * (row.nibble.getMsbD 1).toNat +
      2 * (row.nibble.getMsbD 2).toNat + (row.nibble.getMsbD 3).toNat = row.nibble.toNat := by
    generalize row.nibble = nibble
    revert nibble
    decide
  have even : ((row.nibble.getMsbD 0 ^^ row.nibble.getMsbD 1 ^^ row.nibble.getMsbD 2 ^^
      row.nibble.getMsbD 3) == row.parity) = row.even := by
    rw [Em4100Row.even, split]
    generalize row.nibble.getMsbD 0 = p, row.nibble.getMsbD 1 = q, row.nibble.getMsbD 2 = r,
      row.nibble.getMsbD 3 = t, row.parity = parity
    revert p q r t parity
    decide
  have tag : (value <<< 4 ||| row.nibble.toNat) % 2 ^ 64 = 16 * value + row.nibble.toNat := by
    have bound := row.nibble.isLt
    rw [← Nat.shiftLeft_add_eq_or_of_lt bound, Nat.shiftLeft_eq, Nat.mod_eq_of_lt (by omega),
      Nat.mul_comm]
  have sum : (range 4).map (sums ^^^ row.nibble).getMsbD =
      [sums.getMsbD 0 ^^ row.nibble.getMsbD 0, sums.getMsbD 1 ^^ row.nibble.getMsbD 1,
        sums.getMsbD 2 ^^ row.nibble.getMsbD 2, sums.getMsbD 3 ^^ row.nibble.getMsbD 3] := by
    simp only [← BitVec.getMsbD_xor]
    rfl
  have label : s.payloadCnt + 4 + 1 ≤ 10 ↔ count < 2 := by omega
  rw [number] at nibble
  rw [split, foldl_append, nibble, foldl_cons, foldl_nil,
    putbit_parity (by exact state) rfl]
  dsimp only
  rw [rows.tag, rows.allRowParityOk, even, tag]
  constructor
  · refine ⟨?_, rows.firstOne, rfl, ?_, ⟨parities ^^ row.parity, by rw [sum]; rfl⟩, rows.colParity,
      rfl, rfl⟩
    · by_cases more : count + 1 < 10
      · exact (if_neg (by omega)).trans (if_pos more).symm
      · exact (if_pos (by omega)).trans (if_neg more).symm
    · by_cases more : count + 1 < 10
      · rw [if_pos more]
        exact (if_neg (by omega)).trans (by omega)
      · exact (if_pos (by omega)).trans (if_neg more).symm
  · simp only [label]
    rw [List.append_assoc, List.append_assoc]
    rfl

theorem foldl_rows {count value : Nat} (todo : List Em4100Row)
    (rows : Rows count value sums ok s) (few : count + todo.length ≤ 10)
    (small : value < 2 ^ (4 * count)) :
    Rows (count + todo.length) (todo.foldl (fun value row => 16 * value + row.nibble.toNat) value)
        (todo.foldl (fun sums row => sums ^^^ row.nibble) sums) (ok && todo.all Em4100Row.even)
        ((todo.flatMap Em4100Row.bits).foldl putbit s) ∧
      ((todo.flatMap Em4100Row.bits).foldl putbit s).anns =
        s.anns ++ (todo.zipIdx count).flatMap (fun row => row.1.anns row.2) := by
  induction todo generalizing s count value sums ok with
  | nil =>
      rw [all_nil, Bool.and_true]
      exact ⟨rows, (List.append_nil _).symm⟩
  | cons row todo ih =>
      rw [length_cons] at few ⊢
      have bound := row.nibble.isLt
      have most : value < 2 ^ 60 :=
        Nat.lt_of_lt_of_le small (Nat.pow_le_pow_right (by decide) (by omega))
      have more : 16 * value + row.nibble.toNat < 2 ^ (4 * (count + 1)) := by
        rw [Nat.mul_add, Nat.pow_add]
        omega
      obtain ⟨next, nextAnns⟩ := foldl_row rows (by omega) most row
      obtain ⟨rest, restAnns⟩ := ih next (by omega) more
      rw [Bool.and_assoc, Nat.add_assoc, Nat.add_comm 1] at rest
      rw [nextAnns, List.append_assoc] at restAnns
      rw [flatMap_cons, foldl_append, zipIdx_cons, flatMap_cons]
      exact ⟨rest, restAnns⟩

def trailerBits (columns : BitVec 4) (stop : Bool) : List Bool :=
  (List.range 4).map columns.getMsbD ++ [stop]

theorem putbit_trailer (state : s.state = .trailer) (few : s.dataBits < 4) (bit : Bool) :
    s.putbit bit =
      { s with
        payloadCnt := s.payloadCnt + 1
        dataBits := s.dataBits + 1
        dataParity := if s.dataBits = 0 then false else s.dataParity
        colParity := s.colParity.set (s.dataBits + 1) bit
        data := if s.dataBits = 0 then 0 else s.data
        anns := s.anns ++ [Em4100Ann.bit bit] } := by
  have more : s.dataBits + 1 ≠ 5 := by omega
  rw [putbit]
  simp only [put, state]
  rcases Nat.eq_zero_or_pos s.dataBits with zero | some
  · simp [trailerBit, countBit, zero]
  · simp [trailerBit, countBit, Nat.ne_of_gt some, more]

theorem putbit_stop (state : s.state = .trailer) (four : s.dataBits = 4)
    (count : s.payloadCnt = 4) {f p q r t u a b c d e g : Bool}
    (sums : s.dataColParity = [f, p, q, r, t, u]) (columns : s.colParity = [g, a, b, c, d, e])
    (firstOne : s.firstOne = 0) (bit : Bool) :
    (s.putbit bit).Clean ∧
      (s.putbit bit).anns = s.anns ++ ([Em4100Ann.bit bit, .stopBit, .colParity 1 (p == a),
        .colParity 2 (q == b), .colParity 3 (r == c), .colParity 4 (t == d)] ++
        if [p == a, q == b, r == c, t == d].all id && s.allRowParityOk then [.tag s.tag]
        else []) := by
  have indices : range' 1 4 = [1, 2, 3, 4] := rfl
  rw [putbit]
  simp only [put, state]
  rw [trailerBit]
  simp only [countBit, four, put, OfNat.ofNat_ne_zero, if_false, if_true, columns, count,
    Nat.reduceAdd, indices, colOk, sums, all_cons, all_nil, map_cons, map_nil,
    getD_eq_getElem?_getD, List.set, getElem?_cons_succ, getElem?_cons_zero,
    Option.getD_some, id]
  by_cases valid : ((p == a && (q == b && (r == c && (t == d && true)))) && s.allRowParityOk) = true
  · simp only [valid, if_true]
    refine ⟨⟨rfl, firstOne, rfl, rfl, rfl, rfl, rfl, rfl⟩, ?_⟩
    simp only [List.append_assoc]
    rfl
  · simp only [valid]
    exact ⟨⟨rfl, firstOne, rfl, rfl, rfl, rfl, rfl, rfl⟩, List.append_assoc ..⟩

theorem foldl_trailer {value : Nat}
    (rows : Rows 10 value sums ok s) (columns : BitVec 4) (stop : Bool) :
    ((trailerBits columns stop).foldl putbit s).Clean ∧
      ((trailerBits columns stop).foldl putbit s).anns =
        s.anns ++ ((trailerBits columns stop).map Em4100Ann.bit ++ [Em4100Ann.stopBit] ++
          (range 4).map (fun i =>
            Em4100Ann.colParity (i + 1) (sums.getMsbD i == columns.getMsbD i)) ++
          (if (range 4).all (fun i => sums.getMsbD i == columns.getMsbD i) && ok then
            [.tag value] else [])) := by
  obtain ⟨parities, data⟩ := rows.dataColParity
  have state : s.state = .trailer := rows.state
  have payloadCnt : s.payloadCnt = 0 := rows.payloadCnt
  have split : trailerBits columns stop = [columns.getMsbD 0, columns.getMsbD 1,
      columns.getMsbD 2, columns.getMsbD 3, stop] := rfl
  have fresh := rows.dataBits
  rw [split, foldl_cons, putbit_trailer state (by omega),
    foldl_cons, putbit_trailer (by exact state) (by simp [fresh]),
    foldl_cons, putbit_trailer (by exact state) (by simp [fresh]),
    foldl_cons, putbit_trailer (by exact state) (by simp [fresh]), foldl_cons,
    foldl_nil]
  simp only [fresh, rows.colParity, payloadCnt]
  obtain ⟨clean, anns⟩ := putbit_stop (s := { s with
    payloadCnt := 4
    dataBits := 4
    dataParity := false
    colParity := [false, columns.getMsbD 0, columns.getMsbD 1, columns.getMsbD 2,
      columns.getMsbD 3, false]
    data := 0
    anns := s.anns ++ [Em4100Ann.bit (columns.getMsbD 0)] ++ [Em4100Ann.bit (columns.getMsbD 1)] ++
      [Em4100Ann.bit (columns.getMsbD 2)] ++ [Em4100Ann.bit (columns.getMsbD 3)] }) state rfl rfl
    data rfl rows.firstOne stop
  refine ⟨clean, anns.trans ?_⟩
  rw [rows.tag, rows.allRowParityOk]
  simp only [List.append_assoc]
  rfl

theorem foldl_block (clean : s.Clean) (block : Em4100Block) : (block.bits.foldl putbit s).Clean ∧
      (block.bits.foldl putbit s).anns = s.anns ++ block.anns := by
  obtain ⟨header, headerAnns⟩ := foldl_header clean
  have few : 0 + block.rows.length ≤ 10 := by rw [block.length_rows]
  obtain ⟨rows, rowsAnns⟩ := foldl_rows block.rows header few (by decide)
  rw [block.length_rows] at rows
  obtain ⟨trailer, trailerAnns⟩ := foldl_trailer rows block.columns block.stop
  rw [Em4100Block.bits, foldl_append, foldl_append]
  refine ⟨trailer, trailerAnns.trans ?_⟩
  rw [rowsAnns, headerAnns, List.append_assoc, List.append_assoc, Em4100Block.anns,
    Em4100Block.valid, Bool.true_and, Bool.and_comm, List.append_assoc]
  rfl

theorem foldl_blocks (clean : s.Clean) (blocks : List Em4100Block) :
    ((blocks.flatMap Em4100Block.bits).foldl putbit s).Clean ∧
      ((blocks.flatMap Em4100Block.bits).foldl putbit s).anns =
        s.anns ++ blocks.flatMap Em4100Block.anns := by
  induction blocks generalizing s with
  | nil => exact ⟨clean, (List.append_nil _).symm⟩
  | cons block blocks ih =>
      obtain ⟨next, nextAnns⟩ := foldl_block clean block
      obtain ⟨rest, restAnns⟩ := ih next
      rw [flatMap_cons, foldl_append, flatMap_cons]
      rw [nextAnns, List.append_assoc] at restAnns
      exact ⟨rest, restAnns⟩

theorem clean_start : start.Clean := ⟨rfl, rfl, rfl, rfl, rfl, rfl, rfl, rfl⟩

/-- A block is reported with what is wrong in it, or with its tag, and the next one is read from
the header again. -/
theorem blocks_reported (clean : s.Clean) (blocks : List Em4100Block) :
    ((blocks.flatMap Em4100Block.bits).foldl putbit s).Clean ∧
      ((blocks.flatMap Em4100Block.bits).foldl putbit s).anns =
        s.anns ++ blocks.flatMap Em4100Block.anns :=
  foldl_blocks clean blocks

def leadingEight : Em4100Block :=
  { rows := ⟨8, true⟩ :: List.replicate 9 ⟨0, false⟩
    columns := 8
    stop := false
    length_rows := rfl }

theorem blocks_reported_leadingEight :
    (([leadingEight].flatMap Em4100Block.bits).foldl putbit start).Clean ∧
      (([leadingEight].flatMap Em4100Block.bits).foldl putbit start).anns =
        start.anns ++ [leadingEight].flatMap Em4100Block.anns :=
  blocks_reported clean_start [leadingEight]

end Em4100

end SigrokDecode
