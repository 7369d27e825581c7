import PhotonCommerce.Config.AppConfig
import PhotonCommerce.Lib.FirstError

/-!
# Sections of the configuration file

Every `Parse*` function of `AppConfig` goes through the same steps: the section is there, every key is there, every
value is read, every check passes; it stops at the first that fails.

* `Section` : the data of these steps, `Section.read` : the steps;
* `Node.Reads` : what stands in the file under a section and a key;
* `Section.read_eq_ok_iff` : a section is accepted exactly with the values that stand there and pass;
* `Section.problems` : everything that is wrong at the first step that fails; `Section.read_eq_error_iff` : the first
  of these is thrown.
-/

namespace PhotonCommerce.Config
open FirstError

/-! ## Values -/

/-- What a value is read as. -/
inductive Kind where
  | string
  | int
  deriving DecidableEq

/-- A value that was read. -/
inductive Value where
  | string (text : Bytes)
  | int (n : Int)
  deriving DecidableEq

def Value.kind : Value → Kind
  | .string _ => .string
  | .int _ => .int

/-- An integer that was read is one of `int`. -/
def Value.Fits : Value → Prop
  | .string _ => True
  | .int n => FitsInt n

/-- `as<std::string>()` or `as<int>()`. -/
def Kind.as (kind : Kind) (node : Node) : Except Thrown Value :=
  match kind with
  | .string => node.asString.map .string
  | .int => node.asInt.map .int

theorem Kind.kind_of_as {kind : Kind} {node : Node} {value : Value} (h : kind.as node = .ok value) :
    value.kind = kind ∧ value.Fits := by
  cases kind with
  | string =>
      cases htext : node.asString with
      | error e => simp [Kind.as, htext, Except.map] at h
      | ok text =>
          simp only [Kind.as, htext, Except.map, Except.ok.injEq] at h
          exact h ▸ ⟨rfl, trivial⟩
  | int =>
      cases hn : node.asInt with
      | error e => simp [Kind.as, hn, Except.map] at h
      | ok n =>
          simp only [Kind.as, hn, Except.map, Except.ok.injEq] at h
          exact h ▸ ⟨rfl, Node.fitsInt_of_asInt hn⟩

/-- The local variables of a `Parse*` function, by the keys they were read from. -/
abbrev Values := List (String × Value)

def Values.string (v : Values) (key : String) : Bytes :=
  match v.lookup key with
  | some (.string text) => text
  | _ => []

def Values.int (v : Values) (key : String) : Int :=
  match v.lookup key with
  | some (.int n) => n
  | _ => 0

/-! ## Sections -/

/-- A key, what its value is read as, and what is thrown when it is not there. -/
structure Field where
  key : String
  kind : Kind
  missing : String

/-- A field with the usual text. -/
def Field.required (section_ key : String) (kind : Kind) : Field :=
  ⟨key, kind, "Config Error: Missing '" ++ section_ ++ "." ++ key ++ "'"⟩

/-- A check, and what is thrown when it fails. -/
structure Check where
  passes : Bool
  what : String

def Check.run (c : Check) : Except Thrown Unit := if c.passes then .ok () else .error (.runtime c.what)

/-- `ValidateNotEmpty`. -/
def Check.notEmpty (value : Bytes) (fieldName : String) : Check :=
  ⟨decide (value ≠ []), "Config Error: '" ++ fieldName ++ "' cannot be empty"⟩

/-- `ValidatePort`. -/
def Check.port (port : Int) (fieldName : String) : Check :=
  ⟨decide (0 < port ∧ port ≤ 65535), "Config Error: " ++ fieldName ++ " value '" ++ toString port ++
    "' is invalid. Must be between 1 and 65535"⟩

/-- The steps of a `Parse*` function. -/
structure Section where
  name : String
  fields : List Field
  checks : Values → List Check

/-- The node of a field, which has to be there. -/
def Field.find (node : Node) (f : Field) : Except Thrown (Field × Node) := (node.require f.key f.missing).map (f, ·)

/-- The value of a field that was found. -/
def Field.convert (p : Field × Node) : Except Thrown (String × Value) := (p.1.kind.as p.2).map (p.1.key, ·)

/-- Every key is there, then every value is read, then every check passes. -/
def Section.read (sec : Section) (root : Node) : Except Thrown Values := do
  let node ← root.require sec.name ("Missing '" ++ sec.name ++ "' section")
  let nodes ← sec.fields.mapM (Field.find node)
  let values ← nodes.mapM Field.convert
  (sec.checks values).forM Check.run
  return values

/-! ## What is read -/

/-- A field on its own. -/
def Field.read (node : Node) (f : Field) : Except Thrown (String × Value) := f.find node >>= Field.convert

/-- `value` stands in the file under `key` in the section `name`. -/
def Node.Reads (root : Node) (name : String) (entry : String × Value) : Prop :=
  ∃ node n, root.at? name = .ok (some node) ∧ node.at? entry.1 = .ok (some n) ∧ entry.2.kind.as n = .ok entry.2

section Reading
variable {sec : Section} {root node : Node} {f : Field} {fs : List Field} {v : Values}

theorem Node.require_eq_ok_iff {key what : String} {n : Node} :
    node.require key what = .ok n ↔ node.at? key = .ok (some n) := by
  unfold Node.require
  cases hat : node.at? key with
  | error e => simp [bind, Except.bind]
  | ok found =>
      cases found with
      | none => simp
      | some m => simp

theorem Field.find_eq_ok_iff {p : Field × Node} :
    f.find node = .ok p ↔ p.1 = f ∧ node.at? f.key = .ok (some p.2) := by
  obtain ⟨f', n⟩ := p
  rw [← @Node.require_eq_ok_iff node f.key f.missing n, Field.find]
  cases hreq : node.require f.key f.missing with
  | error e => simp [Except.map]
  | ok m =>
      simp only [Except.map, Except.ok.injEq, Prod.mk.injEq]
      exact ⟨fun h => ⟨h.1.symm, h.2⟩, fun h => ⟨h.1.symm, h.2⟩⟩

theorem Field.read_eq_ok_iff {entry : String × Value} : f.read node = .ok entry ↔
    entry.1 = f.key ∧ entry.2.kind = f.kind ∧
      ∃ n, node.at? f.key = .ok (some n) ∧ f.kind.as n = .ok entry.2 := by
  obtain ⟨key, value⟩ := entry
  rw [Field.read, bind_eq_ok_iff]
  constructor
  · intro h
    obtain ⟨p, hfind, hconv⟩ := h
    obtain ⟨hf, hat⟩ := Field.find_eq_ok_iff.mp hfind
    rw [Field.convert, hf] at hconv
    cases has : f.kind.as p.2 with
    | error e => simp [has, Except.map] at hconv
    | ok value' =>
        simp only [has, Except.map, Except.ok.injEq, Prod.mk.injEq] at hconv
        obtain ⟨rfl, rfl⟩ := hconv
        exact ⟨rfl, (Kind.kind_of_as has).1, p.2, hat, has⟩
  · intro h
    obtain ⟨rfl, -, n, hat, has⟩ := h
    refine ⟨(f, n), Field.find_eq_ok_iff.mpr ⟨rfl, hat⟩, ?_⟩
    rw [Field.convert, has]
    rfl

/-- Looking for all fields first does not change what is read. -/
theorem mapM_convert {nodes : List (Field × Node)} (h : fs.mapM (Field.find node) = .ok nodes) :
    nodes.mapM Field.convert = fs.mapM (Field.read node) := by
  have hall := mapM_eq_ok_iff.mp h
  clear h
  induction hall with
  | nil => rfl
  | cons hfind _ ih => rw [List.mapM_cons, List.mapM_cons, Field.read, hfind, ih, bind_ok]

/-- Nor what goes wrong with a value. -/
theorem errors_convert {nodes : List (Field × Node)} (h : fs.mapM (Field.find node) = .ok nodes) :
    errors Field.convert nodes = errors (Field.read node) fs := by
  have hall := mapM_eq_ok_iff.mp h
  clear h
  induction hall with
  | nil => rfl
  | @cons f p fs ps hfind _ ih =>
      have hread : f.read node = Field.convert p := by rw [Field.read, hfind, bind_ok]
      cases hconv : Field.convert p with
      | error e => rw [errors_cons_error hconv, errors_cons_error (hread.trans hconv), ih]
      | ok kv => rw [errors_cons_ok hconv, errors_cons_ok (hread.trans hconv), ih]

theorem Check.run_eq_ok_iff {c : Check} : c.run = .ok () ↔ c.passes = true := by
  unfold Check.run
  split <;> simp_all

/-- A field that is read was found. -/
theorem found_of_read (h : List.Forall₂ (fun f entry => Field.read node f = .ok entry) fs v) :
    ∃ nodes, fs.mapM (Field.find node) = .ok nodes := by
  simp only [mapM_eq_ok_iff]
  induction h with
  | nil => exact ⟨[], .nil⟩
  | cons hfield _ ih =>
      obtain ⟨p, hp, -⟩ := bind_eq_ok_iff.mp hfield
      obtain ⟨ps, hps⟩ := ih
      exact ⟨p :: ps, .cons hp hps⟩

theorem Section.read_iff : sec.read root = .ok v ↔ ∃ node, root.at? sec.name = .ok (some node) ∧
    List.Forall₂ (fun f entry => Field.read node f = .ok entry) sec.fields v ∧
    ∀ c ∈ sec.checks v, c.passes = true := by
  simp only [Section.read, bind_eq_ok_iff, Node.require_eq_ok_iff]
  constructor
  · intro h
    obtain ⟨node, hnode, nodes, hfind, v', hconv, u, hchecks, hend⟩ := h
    rw [mapM_convert hfind, mapM_eq_ok_iff] at hconv
    obtain rfl : v' = v := Except.ok.inj hend
    exact ⟨node, hnode, hconv, fun c hc => Check.run_eq_ok_iff.mp (forM_eq_ok_iff.mp hchecks c hc)⟩
  · intro h
    obtain ⟨node, hnode, hread, hchecks⟩ := h
    obtain ⟨nodes, hnodes⟩ := found_of_read hread
    refine ⟨node, hnode, nodes, hnodes, v, ?_, (), ?_, rfl⟩
    · rw [mapM_convert hnodes, mapM_eq_ok_iff]
      exact hread
    · exact forM_eq_ok_iff.mpr fun c hc => Check.run_eq_ok_iff.mpr (hchecks c hc)

/-- The keys of some values and what they were read as. -/
def Values.shape (v : Values) : List (String × Kind) := v.map fun entry => (entry.1, entry.2.kind)

/-- `entry` stands in a node. -/
def Node.Holds (node : Node) (entry : String × Value) : Prop :=
  ∃ n, node.at? entry.1 = .ok (some n) ∧ entry.2.kind.as n = .ok entry.2

/-- Fields are read with the values that stand under their keys. -/
theorem forall₂_read_iff : List.Forall₂ (fun f entry => Field.read node f = .ok entry) fs v ↔
    v.shape = fs.map (fun f => (f.key, f.kind)) ∧ ∀ entry ∈ v, node.Holds entry := by
  induction fs generalizing v with
  | nil =>
      rw [List.forall₂_nil_left_iff, List.map_nil, Values.shape, List.map_eq_nil_iff]
      constructor
      · intro h
        rw [h]
        exact ⟨rfl, fun entry hentry => absurd hentry List.not_mem_nil⟩
      · exact fun h => h.1
  | cons f fs ih =>
      rw [List.forall₂_cons_left_iff, Values.shape]
      constructor
      · intro h
        obtain ⟨entry, rest, hfield, hrest, rfl⟩ := h
        obtain ⟨hkey, hkind, n, hat, has⟩ := Field.read_eq_ok_iff.mp hfield
        obtain ⟨hshape, hholds⟩ := ih.mp hrest
        refine ⟨?_, List.forall_mem_cons.mpr ⟨⟨n, hkey ▸ hat, hkind ▸ has⟩, hholds⟩⟩
        rw [List.map_cons, List.map_cons, hkey, hkind]
        exact congrArg _ hshape
      · intro h
        obtain ⟨hshape, hholds⟩ := h
        cases v with
        | nil => simp at hshape
        | cons entry rest =>
            simp only [List.map_cons, List.cons.injEq, Prod.mk.injEq] at hshape
            obtain ⟨⟨hkey, hkind⟩, hrest⟩ := hshape
            obtain ⟨⟨n, hat, has⟩, hholds⟩ := List.forall_mem_cons.mp hholds
            exact ⟨entry, rest, Field.read_eq_ok_iff.mpr ⟨hkey, hkind, n, hkey ▸ hat, hkind ▸ has⟩,
              ih.mpr ⟨hrest, hholds⟩, rfl⟩

theorem Node.reads_iff {name : String} {entry : String × Value} (h : root.at? name = .ok (some node)) :
    root.Reads name entry ↔ node.Holds entry := by
  constructor
  · intro hreads
    obtain ⟨node', n, hnode', hat, has⟩ := hreads
    obtain rfl : node' = node := by
      rw [h] at hnode'
      exact (Option.some.inj (Except.ok.inj hnode')).symm
    exact ⟨n, hat, has⟩
  · intro hholds
    obtain ⟨n, hat, has⟩ := hholds
    exact ⟨node, n, h, hat, has⟩

/-- **A section is accepted** exactly with the values that stand in the file under its keys and pass its checks. -/
theorem Section.read_eq_ok_iff (hne : sec.fields ≠ []) : sec.read root = .ok v ↔
    v.shape = sec.fields.map (fun f => (f.key, f.kind)) ∧ (∀ entry ∈ v, root.Reads sec.name entry) ∧
      ∀ c ∈ sec.checks v, c.passes = true := by
  simp only [Section.read_iff, forall₂_read_iff]
  constructor
  · intro h
    obtain ⟨node, hnode, ⟨hshape, hholds⟩, hchecks⟩ := h
    exact ⟨hshape, fun entry hentry => (Node.reads_iff hnode).mpr (hholds entry hentry), hchecks⟩
  · intro h
    obtain ⟨hshape, hreads, hchecks⟩ := h
    -- the section is there because one of its values is
    obtain ⟨entry, hentry⟩ : ∃ entry, entry ∈ v := by
      cases v with
      | nil => exact absurd (List.map_eq_nil_iff.mp hshape.symm) hne
      | cons entry rest => exact ⟨entry, List.mem_cons_self⟩
    obtain ⟨node, -, hnode, -⟩ := hreads entry hentry
    exact ⟨node, hnode, ⟨hshape, fun e he => (Node.reads_iff hnode).mp (hreads e he)⟩, hchecks⟩

/-! ## What is wrong -/

/-- The values of the fields that can be read. -/
def valuesIn (node : Node) (fs : List Field) : Values :=
  fs.filterMap fun f => match f.read node with
    | .ok entry => some entry
    | .error _ => none

/-- What is wrong with a section: that it is not there; every key that is not; every value that cannot be read; every
check that fails. -/
def Section.problems (sec : Section) (root : Node) : List Thrown :=
  match root.at? sec.name with
  | .error e => [e]
  | .ok none => [.runtime ("Missing '" ++ sec.name ++ "' section")]
  | .ok (some node) =>
      stage (errors (Field.find node) sec.fields)
        (stage (errors (Field.read node) sec.fields) (errors Check.run (sec.checks (valuesIn node sec.fields))))

theorem valuesIn_eq (h : fs.mapM (Field.read node) = .ok v) : valuesIn node fs = v := by
  have hall := mapM_eq_ok_iff.mp h
  clear h
  unfold valuesIn
  induction hall with
  | nil => rfl
  | cons hfield _ ih => rw [List.filterMap_cons, hfield, ih]

/-- **The first problem is thrown.** -/
theorem Section.read_eq_error_iff {e : Thrown} : sec.read root = .error e ↔ (sec.problems root).head? = some e := by
  unfold Section.read Section.problems
  cases hat : root.at? sec.name with
  | error e' => simp [Node.require, hat, bind, Except.bind]
  | ok found =>
      cases found with
      | none => simp [Node.require, hat, bind, Except.bind]
      | some node =>
          rw [Node.require_eq_ok_iff.mpr hat, bind_ok]
          refine stage_bind (fun e => mapM_eq_error_iff) fun nodes hnodes => ?_
          rw [← errors_convert hnodes]
          refine stage_bind (fun e => mapM_eq_error_iff) fun values hvalues => ?_
          rw [mapM_convert hnodes] at hvalues
          rw [valuesIn_eq hvalues, bind_eq_error_iff, forM_eq_error_iff]
          constructor
          · intro h
            rcases h with h | ⟨_, -, h⟩
            · exact h
            · cases h
          · exact Or.inl

end Reading

end PhotonCommerce.Config
