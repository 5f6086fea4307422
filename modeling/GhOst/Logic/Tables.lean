import GhOst.Logic.Inspect
import GhOst.Sql.Values

/-!
# The two tables as the server has them

The definitions of the columns, what the server tells the inspection about them, and a `Server`
that treats the values as `GhOst.Sql.Values` says.
-/

namespace GhOst.Logic

open GhOst.Sql

variable {τ : Type}

/-- `CHARACTER_SET_NAME` of a column, empty where it is NULL. -/
def charsetName : SqlType τ → String
  | .integer _ _ | .binary _ => ""
  | .enum _ charset | .text charset _ => charset.name

/-- None of the words that `applyColumnTypes` looks for, apart from those of the integer types. -/
def PlainType (columnType : String) : Prop :=
  startsWith columnType "binary" = false ∧ startsWith columnType "enum" = false ∧
    contains columnType "float" = false ∧ contains columnType "json" = false ∧
    contains columnType "datetime" = false ∧ contains columnType "timestamp" = false

instance (columnType : String) : Decidable (PlainType columnType) :=
  inferInstanceAs (Decidable (_ ∧ _))

/-- The texts that `COLUMN_TYPE` can have for a type. -/
def Renders (d : Dialect τ) : SqlType τ → String → Prop
  | .integer w unsigned, columnType =>
    PlainType columnType ∧ contains columnType "unsigned" = unsigned ∧
      (contains columnType "mediumint" = true ↔ w = .mediumint)
  | .binary _, columnType => startsWith columnType "binary" = true
  -- the labels as string literals, in which line feeds are escaped
  | .enum labels _, columnType => ∃ values, columnType = "enum(" ++ values ++ ")" ∧
    '\n' ∉ values.toList ∧ d.literals values = labels
  | .text _ _, columnType => PlainType columnType

structure ColumnDef (d : Dialect τ) where
  name : String
  type : SqlType τ
  columnType : String
  extra : String := ""
  renders : Renders d type columnType

/-- The row of a column in `information_schema.columns`. -/
def ColumnDef.info {d : Dialect τ} (column : ColumnDef d) : ColumnInfo where
  columnName := column.name
  columnType := column.columnType
  characterOctetLength :=
    match column.type with
    | .binary n => n
    | _ => 0
  extra := column.extra
  characterSetName := charsetName column.type

def typeOf {d : Dialect τ} (columns : List (ColumnDef d)) (name : String) : Option (SqlType τ) :=
  (columns.find? fun c => c.name = name).map ColumnDef.type

/-- A server that holds the two tables. Unique indexes see the stored values. -/
def serverOf (d : Dialect τ) (original ghost : List (ColumnDef d)) : Server Stored Stored where
  admits column v := (typeOf original column).any fun type => type.admits v
  image column v := ((typeOf original column).map fun type => type.image v).getD .null
  bind column token arg := ((typeOf ghost column).map fun type => d.bind type token arg).getD .null
  select source target v :=
    (match typeOf original source, typeOf ghost target with
      | some sourceType, some targetType => d.select sourceType targetType v
      | _, _ => .null)
  collate _ v := v
  equals column v arg := (typeOf ghost column).any fun type => d.equals type v arg
  isNull v := v = .null

/-- The inspection is told about these columns, and names are distinct in each table. -/
structure Inspection.Describes {d : Dialect τ} (isp : Inspection)
    (original ghost : List (ColumnDef d)) : Prop where
  originalColumns : isp.originalTableColumns = newColumnList (original.map ColumnDef.name)
  originalInfos : isp.originalColumnInfos = original.map ColumnDef.info
  ghostInfos : isp.ghostColumnInfos = ghost.map ColumnDef.info
  originalNames : (original.map ColumnDef.name).Nodup
  ghostNames : (ghost.map ColumnDef.name).Nodup

/-! ## What the inspection reads off a type -/

theorem readColumnType_plain {columnType : String} (h : PlainType columnType) (type : ColumnType) :
    readColumnType columnType type
      = if contains columnType "mediumint" then .mediumInt else type := by
  obtain ⟨hbinary, henum, hfloat, hjson, hdatetime, htimestamp⟩ := h
  simp [readColumnType, hbinary, henum, hfloat, hjson, hdatetime, htimestamp]

theorem contains_of_startsWith {s start : String} (h : startsWith s start = true) :
    contains s start = true := by
  unfold startsWith at h
  unfold contains
  rw [decide_eq_true_iff] at h ⊢
  exact h.isInfix

theorem enumText_toList (values : String) :
    ("enum(" ++ values ++ ")").toList = ['e', 'n', 'u', 'm', '('] ++ values.toList ++ [')'] := by
  rw [String.toList_append, String.toList_append]
  rfl

theorem readColumnType_enum (values : String) (type : ColumnType) :
    startsWith ("enum(" ++ values ++ ")") "enum" = true ∧
      readColumnType ("enum(" ++ values ++ ")") type = .enum := by
  have henum : startsWith ("enum(" ++ values ++ ")") "enum" = true := by
    unfold startsWith
    rw [decide_eq_true_iff, enumText_toList]
    exact ⟨'(' :: values.toList ++ [')'], rfl⟩
  have hbinary : startsWith ("enum(" ++ values ++ ")") "binary" = false := by
    unfold startsWith
    rw [decide_eq_false_iff_not, enumText_toList]
    rintro ⟨rest, h⟩
    have h : 'b' :: ("inary".toList ++ rest) = _ := h
    simp at h
  refine ⟨henum, ?_⟩
  unfold readColumnType
  rw [if_neg (by simp [hbinary]), if_pos henum]

theorem parseEnumValues_eq {values : String} (h : '\n' ∉ values.toList) :
    parseEnumValues ("enum(" ++ values ++ ")") = values := by
  have htext := enumText_toList values
  have hinner : ((("enum(" ++ values ++ ")").toList).drop 5).dropLast = values.toList := by
    rw [htext, List.append_assoc, List.drop_append_of_le_length (by decide)]
    simp
  unfold parseEnumValues
  dsimp only
  rw [hinner, if_pos ⟨htext, h⟩, String.ofList_toList]

end GhOst.Logic
