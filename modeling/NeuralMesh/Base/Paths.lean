import NeuralMesh.Base.FileSystem

/-!
# Where a path leads

A path may climb with `..`. Where it leads, read from left to right, and what a name that is joined to
a directory does on its own: how far it climbs out of the directory, and where it goes from there.
Links are left out.
-/

namespace NeuralMesh

theorem not_mem_of_mem_splitOn {α : Type} [DecidableEq α] {sep : α} {text part : List α}
    (hpart : part ∈ text.splitOn sep) : sep ∉ part := by
  induction text generalizing part with
  | nil =>
      rw [List.splitOn_nil, List.mem_singleton] at hpart
      rw [hpart]
      exact List.not_mem_nil
  | cons c text ih =>
      rw [List.splitOn_cons_eq_if_modifyHead] at hpart
      split at hpart
      · rcases List.mem_cons.mp hpart with rfl | hpart
        · exact List.not_mem_nil
        · exact ih hpart
      · rename_i hne
        cases hparts : text.splitOn sep with
        | nil => exact absurd hparts (List.splitOn_ne_nil sep text)
        | cons first parts =>
            rw [hparts, List.modifyHead_cons] at hpart
            rcases List.mem_cons.mp hpart with rfl | hpart
            · have hfirst : sep ∉ first := ih (hparts ▸ List.mem_cons_self)
              refine fun hmem => ?_
              rcases List.mem_cons.mp hmem with rfl | hmem
              · exact hne (beq_self_eq_true _)
              · exact hfirst hmem
            · exact ih (hparts ▸ List.mem_cons_of_mem _ hpart)

/-- The name of an entry of a directory. -/
structure IsName (name : String) : Prop where
  ne_empty : name ≠ ""
  ne_dot : name ≠ "."
  ne_dotdot : name ≠ ".."
  no_slash : '/' ∉ name.toList

instance : DecidablePred IsName := fun name =>
  decidable_of_iff (name ≠ "" ∧ name ≠ "." ∧ name ≠ ".." ∧ '/' ∉ name.toList)
    ⟨fun h => ⟨h.1, h.2.1, h.2.2.1, h.2.2.2⟩, fun h => ⟨h.ne_empty, h.ne_dot, h.ne_dotdot, h.no_slash⟩⟩

namespace Path

variable {dir start p : Path} {name text : String}

/-! ### Components -/

theorem mem_ofString (hmem : name ∈ ofString text) : name ≠ "" ∧ name ≠ "." ∧ '/' ∉ name.toList := by
  rw [ofString, List.mem_filter, decide_eq_true_eq] at hmem
  obtain ⟨hpart, hempty, hdot⟩ := hmem
  obtain ⟨part, hsplit, rfl⟩ := List.mem_map.mp hpart
  refine ⟨hempty, hdot, ?_⟩
  rw [String.toList_ofList]
  exact not_mem_of_mem_splitOn hsplit

theorem ofString_of_isName (hname : IsName name) : ofString name = [name] := by
  rw [ofString, List.splitOn_eq_singleton hname.no_slash, List.map_singleton, String.ofList_toList]
  exact List.filter_eq_self.mpr fun c hc => by
    rw [List.mem_singleton.mp hc]
    exact decide_eq_true ⟨hname.ne_empty, hname.ne_dot⟩

theorem head?_of_isName (hname : IsName name) : name.toList.head? ≠ some '/' := by
  intro hhead
  exact hname.no_slash (List.mem_of_mem_head? hhead)

theorem join_of_isName (hname : IsName name) : dir.join name = dir ++ [name] := by
  rw [join, if_neg (head?_of_isName hname), ofString_of_isName hname]

/-- `PathBuf::push` on the texts of two paths. -/
def pushText (dir text : String) : String :=
  if text.toList.head? = some '/' then text
  else if dir = "" ∨ dir.toList.getLast? = some '/' then dir ++ text
  else dir ++ "/" ++ text

theorem ofString_append_slash (text more : String) :
    ofString (text ++ "/" ++ more) = ofString text ++ ofString more := by
  have hsplit : (text ++ "/" ++ more).toList.splitOn '/' =
      text.toList.splitOn '/' ++ more.toList.splitOn '/' := by
    rw [String.toList_append, String.toList_append, List.append_assoc]
    exact List.splitOn_append_cons_self _ _
  rw [ofString, hsplit, List.map_append, List.filter_append]
  rfl

/-- The text of a joined path spells the path. -/
theorem ofString_pushText (dir text : String) :
    ofString (pushText dir text) = (ofString dir).join text := by
  rw [pushText, join]
  split
  · rfl
  · split
    · rename_i hend
      rcases hend with rfl | hslash
      · rw [String.empty_append]
        rfl
      · obtain ⟨front, hfront⟩ := List.getLast?_eq_some_iff.mp hslash
        have hdir : dir = String.ofList front ++ "/" ++ "" := by
          apply String.toList_inj.mp
          rw [String.append_empty, String.toList_append, String.toList_ofList, hfront]
          rfl
        have hsame : dir ++ text = String.ofList front ++ "/" ++ text := by
          rw [hdir, String.append_empty]
        rw [hsame, hdir, ofString_append_slash, ofString_append_slash]
        show _ = _ ++ [] ++ _
        rw [List.append_nil]
    · exact ofString_append_slash dir text

theorem fileName_eq (text : String) : fileName text = (ofString text).getLast?.filter (· ≠ "..") :=
  rfl

theorem isName_of_fileName (hfile : fileName text = some name) : IsName name := by
  rw [fileName_eq, Option.filter_eq_some_iff] at hfile
  obtain ⟨hlast, hdotdot⟩ := hfile
  obtain ⟨hempty, hdot, hslash⟩ := mem_ofString (List.mem_of_getLast? hlast)
  exact ⟨hempty, hdot, of_decide_eq_true hdotdot, hslash⟩

theorem fileName_of_isName (hname : IsName name) : fileName name = some name := by
  rw [fileName_eq, ofString_of_isName hname]
  exact if_pos (decide_eq_true hname.ne_dotdot)

/-! ### Climbing -/

/-- One component further; above the root there is nothing. -/
def climb (dir : Path) (name : String) : Path :=
  if name = ".." then dir.dropLast else dir ++ [name]

/-- Where a path leads. -/
def resolve (p : Path) : Path := p.foldl climb []

/-- One component more of a relative path. -/
def balanceStep (climbed : Nat × Path) (name : String) : Nat × Path :=
  if name = ".." then
    if climbed.2 = [] then (climbed.1 + 1, []) else (climbed.1, climbed.2.dropLast)
  else (climbed.1, climbed.2 ++ [name])

/-- How far a relative path climbs out of where it starts, and where it goes from there. -/
def balance (p : Path) : Nat × Path := p.foldl balanceStep (0, [])

theorem balance_concat (p : Path) (name : String) :
    balance (p ++ [name]) = balanceStep (balance p) name := by
  rw [balance, List.foldl_append]
  rfl

theorem foldl_climb (dir p : Path) :
    p.foldl climb dir = dir.take (dir.length - (balance p).1) ++ (balance p).2 := by
  induction p using List.reverseRecOn with
  | nil =>
      show dir = dir.take (dir.length - 0) ++ []
      rw [Nat.sub_zero, List.take_length, List.append_nil]
  | append_singleton p name ih =>
      rw [List.foldl_append, ih, List.foldl_cons, List.foldl_nil, balance_concat]
      rw [climb, balanceStep]
      by_cases hup : name = ".."
      · rw [if_pos hup, if_pos hup]
        by_cases hrest : (balance p).2 = []
        · have hless : min (min (dir.length - (balance p).1) dir.length - 1)
              (dir.length - (balance p).1) = dir.length - ((balance p).1 + 1) := by omega
          rw [if_pos hrest, hrest, List.append_nil, List.append_nil, List.dropLast_eq_take,
            List.take_take, List.length_take, hless]
        · rw [if_neg hrest, List.dropLast_append_of_ne_nil hrest]
      · rw [if_neg hup, if_neg hup, List.append_assoc]

theorem resolve_append (dir p : Path) :
    resolve (dir ++ p) =
      (resolve dir).take ((resolve dir).length - (balance p).1) ++ (balance p).2 := by
  rw [resolve, List.foldl_append]
  exact foldl_climb _ p

theorem resolve_eq (p : Path) : resolve p = (balance p).2 := by
  rw [resolve, foldl_climb, List.take_nil, List.nil_append]

theorem balance_of_plain (hplain : ".." ∉ p) : balance p = (0, p) := by
  induction p using List.reverseRecOn with
  | nil => rfl
  | append_singleton p name ih =>
      rw [List.mem_append, not_or, List.mem_singleton] at hplain
      rw [balance_concat, ih hplain.1, balanceStep, if_neg fun heq => hplain.2 heq.symm]

/-- Without `..` a path leads where it says. -/
theorem resolve_of_plain (hplain : ".." ∉ p) : resolve p = p := by
  rw [resolve_eq, balance_of_plain hplain]

theorem resolve_concat (dir : Path) (hname : IsName name) :
    resolve (dir ++ [name]) = resolve dir ++ [name] := by
  rw [resolve, List.foldl_append]
  exact if_neg hname.ne_dotdot

/-! ### Below a directory -/

/-- The path leads to the directory or below it. -/
def Below (dir p : Path) : Prop := dir <+: resolve p

def IsAbsolute (text : String) : Prop := text.toList.head? = some '/'

instance (text : String) : Decidable (IsAbsolute text) :=
  inferInstanceAs (Decidable (text.toList.head? = some '/'))

/-- What `text` and then `more`, joined to `start`, lead to is below `dir`. An absolute text goes there
from the root; a relative one from what is left of `start` when it has climbed as far as it does. -/
def Confines (dir start : Path) (text : String) (more : Path) : Prop :=
  if IsAbsolute text then dir <+: (balance (ofString text ++ more)).2
  else
    dir <+: start.take (start.length - (balance (ofString text ++ more)).1) ++
      (balance (ofString text ++ more)).2

theorem below_join_iff {more : Path} :
    Below dir (start.join text ++ more) ↔ Confines dir (resolve start) text more := by
  by_cases habsolute : IsAbsolute text
  · have hjoin : start.join text = ofString text := if_pos habsolute
    rw [Below, Confines, if_pos habsolute, hjoin, resolve_eq]
  · have hjoin : start.join text = start ++ ofString text := if_neg habsolute
    rw [Below, Confines, if_neg habsolute, hjoin, List.append_assoc, resolve_append]

/-- A relative text stays in its directory exactly when it goes back into all that it climbs out of. -/
theorem confines_self_iff {more : Path} (hrelative : ¬ IsAbsolute text) :
    Confines dir dir text more ↔
      dir.drop (dir.length - (balance (ofString text ++ more)).1) <+:
        (balance (ofString text ++ more)).2 := by
  rw [Confines, if_neg hrelative]
  conv => lhs; lhs; rw [← List.take_append_drop (dir.length - (balance (ofString text ++ more)).1) dir]
  rw [List.prefix_append_right_inj]

theorem below_of_isName (hname : IsName name) (dir : Path) : Below (resolve dir) (dir.join name) := by
  rw [Below, join_of_isName hname, resolve_concat dir hname]
  exact List.prefix_append _ _

end Path

/-! ### Walking a file system -/

namespace FileSystem

variable (fs : FileSystem)

/-- The entry a path leads to, when what it goes through are directories. -/
def walk (p : Path) : Option Path :=
  p.foldlM (fun dir name => if fs.node dir = some .dir then some (Path.climb dir name) else none) []

/-- `Path::exists` of a path that may climb. -/
def reaches (p : Path) : Bool := (fs.walk p).any fun q => fs.pathExists q

variable {fs} {p : Path}

/-- A path that is made only of directories leads somewhere. -/
theorem reaches_of_dirs (hdirs : ∀ q, fs.node q = some .dir) : fs.reaches p = true := by
  have hwalk : ∀ (p dir : Path), p.foldlM (fun dir name =>
      if fs.node dir = some .dir then some (Path.climb dir name) else none) dir =
        some (p.foldl Path.climb dir) := by
    intro p
    induction p with
    | nil => exact fun _ => rfl
    | cons name p ih =>
        intro dir
        rw [List.foldlM_cons, if_pos (hdirs dir)]
        exact ih _
  rw [reaches, walk, hwalk, Option.any_some, pathExists, hdirs]
  rfl

end FileSystem

end NeuralMesh
