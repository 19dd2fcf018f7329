import Mathlib
import Projectnelth.ByteBlock

/-!
# The loader of a DBC file

`Load` reads the header and the bytes behind it. `AutoProduceData` makes a table of structures
from the records, with a table of pointers to them, and `AutoProduceStrings` sets the strings of
these structures that are empty. A call gives nothing where it reads or writes outside a block,
reads what was not written, or fails an assertion. Words are of 32 bits, pointers of 64. A float is
known by its bits.
-/

namespace Projectnelth.DbcModel

open BitBytes ByteBlock

/-- What 32 bits hold. -/
def UINT32 : ℕ := 2^32

/-- The characters of a format that the loader supports. -/
inductive Ft where
  /-- `FT_NA`. -/
  | na
  /-- `FT_NA_BYTE`. -/
  | naByte
  /-- `FT_STRING`. -/
  | string
  /-- `FT_FLOAT`. -/
  | float
  /-- `FT_INT`. -/
  | int
  /-- `FT_BYTE`. -/
  | byte
  /-- `FT_SORT`. -/
  | sort
  /-- `FT_IND`. -/
  | ind
  deriving DecidableEq

/-- The bytes of a field in a file. -/
def Ft.fileSize : Ft → ℕ
  | .byte => 1
  | .naByte => 1
  | _ => 4

/-- The bytes of a field in a structure. -/
def Ft.size : Ft → ℕ
  | .float => 4
  | .int => 4
  | .string => 8
  | .ind => 4
  | .byte => 1
  | _ => 0

structure DBCFileLoader where
  recordSize : ℕ
  recordCount : ℕ
  fieldCount : ℕ
  stringSize : ℕ
  fieldsOffset : List ℕ
  data : List UInt8
  deriving DecidableEq

/-! ## `Load` -/

/-- A number from its bytes, the lowest first. -/
def word (bytes : List UInt8) : ℕ := Nat.ofDigits 256 (bytes.map UInt8.toNat)

/-- `fread` of a word. -/
def readWord : List UInt8 → Option (ℕ×List UInt8)
  | b₀::b₁::b₂::b₃::f => some (word [b₀,b₁,b₂,b₃],f)
  | _ => none

/-- The numbers behind `WDBC`. -/
structure Header where
  recordCount : ℕ
  fieldCount : ℕ
  recordSize : ℕ
  stringSize : ℕ
  deriving DecidableEq

/-- The reads of the header, which may fail. -/
def readHeader (f : List UInt8) : Option (Header×List UInt8) :=
  (readWord f).bind fun (header,f) =>
    if header≠0x43424457 then none
    else
      (readWord f).bind fun (recordCount,f) =>
        (readWord f).bind fun (fieldCount,f) =>
          (readWord f).bind fun (recordSize,f) =>
            (readWord f).map fun (stringSize,f) =>
              (⟨recordCount,fieldCount,recordSize,stringSize⟩,f)

/-- The loop for the offsets of the fields, so many of them. The character behind the last one may
be read as well. -/
def offsetsFrom (offset : ℕ) : ℕ → List Ft → Option (List ℕ)
  | 0,_ => some []
  | n+1,c::fmt =>
    let offset := (offset+c.fileSize)%UINT32
    (offsetsFrom offset n fmt).map (offset::·)
  | 1,[] => some [(offset+4)%UINT32]
  | _+2,[] => none

/-- The array `fieldsOffset`. Its first entry is written whether there is one or not. -/
def makeFieldsOffset (fieldCount : ℕ) (fmt : List Ft) : Option (List ℕ) :=
  if fieldCount=0 then none else (offsetsFrom 0 (fieldCount-1) fmt).map (0::·)

/-- `DBCFileLoader::Load`: no loader where it returns `false`. -/
def Load (file : List UInt8) (fmt : List Ft) : Option (Option DBCFileLoader) :=
  match readHeader file with
  | none => some none
  | some (header,f) =>
    (makeFieldsOffset header.fieldCount fmt).map fun fieldsOffset =>
      let size := (header.recordSize*header.recordCount+header.stringSize)%UINT32
      -- nothing is an object of no bytes, so that `fread` does not return 1
      if size=0 ∨ f.length < size then none
      else some ⟨header.recordSize,header.recordCount,header.fieldCount,header.stringSize,
        fieldsOffset,f.take size⟩

namespace DBCFileLoader

variable (l : DBCFileLoader)

/-- Where `stringTable` is in `data`. -/
def stringTable : ℕ := l.recordSize*l.recordCount%UINT32

/-- `getRecord(y).getUInt(x)`, and the bits of `getFloat`. -/
def getUInt (y x : ℕ) : Option ℕ :=
  (l.fieldsOffset[x]?).bind fun offset => (load l.data (y*l.recordSize+offset) 4).map word

/-- `getRecord(y).getUInt8(x)`. -/
def getUInt8 (y x : ℕ) : Option ℕ :=
  (l.fieldsOffset[x]?).bind fun offset => (load l.data (y*l.recordSize+offset) 1).map word

end DBCFileLoader

/-! ## `AutoProduceData` -/

/-- A number of 32 bits with a sign. -/
def int32 (x : ℕ) : ℤ := if x < 2^31 then x else x-2^32

/-- The loop of `GetFormatRecordSize`. -/
def formatLoop (recordsize : ℕ) (i : ℤ) (x : ℕ) : List Ft → ℕ×ℤ
  | [] => (recordsize,i)
  | c::fmt =>
    formatLoop ((recordsize+c.size)%UINT32) (if c=.sort ∨ c=.ind then int32 x else i) (x+1) fmt

/-- `GetFormatRecordSize`: the size of the structure and the place of the index. -/
def GetFormatRecordSize (fmt : List Ft) : ℕ×ℤ := formatLoop 0 (-1) 0 fmt

/-- A string of a structure. -/
inductive Ptr where
  | null
  /-- A place in a string pool. -/
  | pool (id offset : ℕ)
  deriving DecidableEq

/-- An entry of the table of pointers. -/
inductive Slot where
  /-- It was not written. -/
  | undef
  | null
  /-- The structure at an offset of the data table. -/
  | row (offset : ℕ)
  deriving DecidableEq

/-- The tables while they are made. -/
structure Build where
  indexTable : List Slot
  dataTable : List (Cell Ptr)
  offset : ℕ

/-- Cells of a field go into the data table. -/
def Build.write (b : Build) (cells : List (Cell Ptr)) : Option Build :=
  (store b.dataTable b.offset cells).map fun dataTable =>
    {b with dataTable := dataTable,offset := (b.offset+cells.length)%UINT32}

/-- An entry goes into the table of pointers. -/
def Build.point (b : Build) (k : ℕ) : Option Build :=
  if k < b.indexTable.length then
    some {b with indexTable := b.indexTable.set k (.row b.offset)}
  else none

/-- A field of a record. -/
def produceField (l : DBCFileLoader) (y x : ℕ) (b : Build) : Ft → Option Build
  | .float => (l.getUInt y x).bind fun v => b.write (ofBytes (leBytes 4 v))
  | .ind => (l.getUInt y x).bind fun v => b.write (ofBytes (leBytes 4 v))
  | .int => (l.getUInt y x).bind fun v => b.write (ofBytes (leBytes 4 v))
  | .byte => (l.getUInt8 y x).bind fun v => b.write (ofBytes (leBytes 1 v))
  | .string => b.write (ofPointer .null)
  | .na => some b
  | .naByte => some b
  | .sort => some b

/-- The loop over the fields of a record, from one field on. -/
def produceFields (l : DBCFileLoader) (y : ℕ) : ℕ → List Ft → Build → Option Build
  | _,[],b => some b
  | x,c::fmt,b => (produceField l y x b c).bind (produceFields l y (x+1) fmt)

/-- A record. -/
def produceRecord (l : DBCFileLoader) (fmt : List Ft) (i : ℤ) (b : Build) (y : ℕ) :
    Option Build :=
  (if 0 ≤ i then l.getUInt y i.toNat else some y).bind fun k =>
    (b.point k).bind (produceFields l y 0 fmt)

/-- The loop for the highest index. -/
def maxIndex (l : DBCFileLoader) (i : ℕ) : Option ℕ :=
  (List.range l.recordCount).foldlM (fun maxi y => (l.getUInt y i).map (max maxi)) 0

/-- `records` and the table of pointers before the records are gone through. -/
def newIndexTable (l : DBCFileLoader) (i : ℤ) (sqlRecordCount sqlHighestIndex : ℕ) :
    Option (ℕ×List Slot) :=
  if 0 ≤ i then
    (maxIndex l i.toNat).map fun maxi =>
      let records := (max maxi sqlHighestIndex+1)%UINT32
      (records,List.replicate records .null)
  else
    let records := (l.recordCount+sqlRecordCount)%UINT32
    some (records,List.replicate records .undef)

/-- What `AutoProduceData` makes. -/
structure Produced where
  records : ℕ
  indexTable : List Slot
  dataTable : List (Cell Ptr)
  /-- Where `sqlDataTable` is in it. -/
  sqlDataTable : ℕ

/-- `DBCFileLoader::AutoProduceData`: nothing is made where it returns `NULL`. -/
def DBCFileLoader.AutoProduceData (l : DBCFileLoader) (fmt : List Ft)
    (sqlRecordCount sqlHighestIndex : ℕ) : Option (Option Produced) :=
  if fmt.length≠l.fieldCount then some none
  else
    let (recordsize,i) := GetFormatRecordSize fmt
    let size := (l.recordCount+sqlRecordCount)%UINT32*recordsize%UINT32
    (newIndexTable l i sqlRecordCount sqlHighestIndex).bind fun (records,indexTable) =>
      ((List.range l.recordCount).foldlM (produceRecord l fmt i)
        ⟨indexTable,List.replicate size .undef,0⟩).map fun b =>
          some ⟨records,b.indexTable,b.dataTable,b.offset⟩

/-! ## `AutoProduceStrings` -/

/-- The data table, and the string pools there are. -/
structure Memory where
  dataTable : List (Cell Ptr)
  pools : List (List UInt8)
  deriving DecidableEq

/-- `!*slot || !**slot`. -/
def Memory.isEmpty (m : Memory) : Ptr → Option Bool
  | .null => some true
  | .pool id offset => ((m.pools[id]?).bind (·[offset]?)).map (·=0)

/-- A string is set to a place in a pool. -/
def Memory.setString (m : Memory) (offset : ℕ) (p : Ptr) : Option Memory :=
  (store m.dataTable offset (ofPointer p)).map fun dataTable => {m with dataTable := dataTable}

/-- A string of a record is set if it is empty. -/
def fillString (l : DBCFileLoader) (id y x : ℕ) (m : Memory) (offset : ℕ) : Option Memory :=
  (loadPointer m.dataTable offset).bind fun slot =>
    (m.isEmpty slot).bind fun empty =>
      if empty then
        (l.getUInt y x).bind fun st =>
          if st < l.stringSize then m.setString offset (.pool id st) else none
      else some m

/-- A field of a record, with the data table and the offset. -/
def stringField (l : DBCFileLoader) (id y x : ℕ) (s : Memory×ℕ) : Ft → Option (Memory×ℕ)
  | .float => some (s.1,(s.2+4)%UINT32)
  | .ind => some (s.1,(s.2+4)%UINT32)
  | .int => some (s.1,(s.2+4)%UINT32)
  | .byte => some (s.1,(s.2+1)%UINT32)
  | .string => (fillString l id y x s.1 s.2).map fun m => (m,(s.2+8)%UINT32)
  | .na => some s
  | .naByte => some s
  | .sort => some s

/-- The loop over the fields of a record, from one field on. -/
def stringFields (l : DBCFileLoader) (id y : ℕ) : ℕ → List Ft → Memory×ℕ → Option (Memory×ℕ)
  | _,[],s => some s
  | x,c::fmt,s => (stringField l id y x s c).bind (stringFields l id y (x+1) fmt)

/-- `DBCFileLoader::AutoProduceStrings`: nothing is done where it returns `NULL`. -/
def DBCFileLoader.AutoProduceStrings (l : DBCFileLoader) (fmt : List Ft) (m : Memory) :
    Option (Option Memory) :=
  if fmt.length≠l.fieldCount then some none
  else
    (load l.data l.stringTable l.stringSize).bind fun pool =>
      ((List.range l.recordCount).foldlM
        (fun s y => stringFields l m.pools.length y 0 fmt s)
        ({m with pools := m.pools++[pool]},0)).map fun s => some s.1

end Projectnelth.DbcModel
