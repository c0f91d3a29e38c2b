import Mathlib.Data.List.TakeWhile

/-! The generic syntax of RFC 3986: the parts of a reference (appendix B) and the removal of
dot segments from its path (section 5.2.4). -/
namespace SssdOidc.Uri

structure Reference where
  scheme : Option (List Char)
  authority : Option (List Char)
  path : List Char
  query : Option (List Char)
  fragment : Option (List Char)
  deriving DecidableEq, Repr

def Reference.below (r : Reference) (tail : List Char) : Reference := { r with path := r.path ++ tail }

section Below
variable (r : Reference) (tail : List Char)

@[simp] theorem belowScheme : (r.below tail).scheme = r.scheme := rfl

@[simp] theorem belowAuthority : (r.below tail).authority = r.authority := rfl

@[simp] theorem belowPath : (r.below tail).path = r.path ++ tail := rfl

@[simp] theorem belowQuery : (r.below tail).query = r.query := rfl

@[simp] theorem belowFragment : (r.below tail).fragment = r.fragment := rfl

end Below

/- What stands before the first `stop`, and what behind it if there is one. -/
def cut (stop : Char) (text : List Char) : List Char × Option (List Char) :=
  match text.dropWhile (· ≠ stop) with
  | [] => (text,none)
  | _ :: behind => (text.takeWhile (· ≠ stop),some behind)

/- A scheme ends at a colon before any slash. -/
def cutScheme (text : List Char) : Option (List Char) × List Char :=
  match text.takeWhile (fun ch => ch ≠ ':' ∧ ch ≠ '/'), text.dropWhile (fun ch => ch ≠ ':' ∧ ch ≠ '/') with
  | ch :: word, ':' :: behind => (some (ch :: word),behind)
  | _, _ => (none,text)

def cutAuthority : List Char → Option (List Char) × List Char
  | '/' :: '/' :: text => (some (text.takeWhile (· ≠ '/')),text.dropWhile (· ≠ '/'))
  | text => (none,text)

def parse (text : List Char) : Reference :=
  let fragment := cut '#' text
  let query := cut '?' fragment.1
  let scheme := cutScheme query.1
  let authority := cutAuthority scheme.2
  ⟨scheme.1,authority.1,authority.2,query.2,fragment.2⟩

section Parts
variable {stop : Char} {text : List Char}

theorem allOther (absent : stop ∉ text) : ∀ ch ∈ text, decide (ch ≠ stop) = true := by
  intro ch inside
  exact decide_eq_true fun same => absent (same ▸ inside)

theorem cutAbsent (absent : stop ∉ text) : cut stop text = (text,none) := by
  have nothing : text.dropWhile (· ≠ stop) = [] := List.dropWhile_eq_nil_iff.mpr (allOther absent)
  rw [cut,nothing]

theorem cutPresent (present : stop ∈ text) : (cut stop text).2 ≠ none := by
  rw [cut]
  cases behind : text.dropWhile (· ≠ stop) with
  | nil =>
    have never := List.dropWhile_eq_nil_iff.mp behind stop present
    simp at never
  | cons ch rest => simp

end Parts

section Append
variable {base tail : List Char}

theorem takeStops {p : Char → Bool} {stop : Char} (ends : p stop = false) (xs ys : List Char) :
    (xs ++ stop :: ys).takeWhile p = xs.takeWhile p := by
  induction xs with
  | nil => exact List.takeWhile_cons_of_neg (by simp [ends])
  | cons x xs ih => rw [List.cons_append,List.takeWhile_cons,List.takeWhile_cons,ih]

theorem dropStops {p : Char → Bool} {stop : Char} (ends : p stop = false) (xs ys : List Char) :
    (xs ++ stop :: ys).dropWhile p = xs.dropWhile p ++ stop :: ys := by
  induction xs with
  | nil => exact List.dropWhile_cons_of_neg (by simp [ends])
  | cons x xs ih =>
    rw [List.cons_append,List.dropWhile_cons,List.dropWhile_cons,ih]
    split <;> rfl

theorem schemeAppend :
    cutScheme (base ++ '/' :: tail) = ((cutScheme base).1,(cutScheme base).2 ++ '/' :: tail) := by
  rw [cutScheme,takeStops (by decide),dropStops (by decide),cutScheme]
  cases base.takeWhile (fun ch => ch ≠ ':' ∧ ch ≠ '/') with
  | nil => rfl
  | cons first word =>
    cases base.dropWhile (fun ch => ch ≠ ':' ∧ ch ≠ '/') with
    | nil => rfl
    | cons stop behind =>
      by_cases colon : stop = ':'
      · rw [colon]
        rfl
      · simp [colon]

theorem authorityAppend (trimmed : base.getLast? ≠ some '/') (single : tail.head? ≠ some '/') :
    cutAuthority (base ++ '/' :: tail) = ((cutAuthority base).1,(cutAuthority base).2 ++ '/' :: tail) := by
  match base with
  | [] =>
    cases tail with
    | nil => rfl
    | cons ch tail =>
      have other : ch ≠ '/' := fun same => single (congrArg some same)
      simp [cutAuthority,other]
  | [ch] =>
    have other : ch ≠ '/' := fun same => trimmed (congrArg some same)
    simp [cutAuthority,other]
  | first :: second :: rest =>
    by_cases slashes : first = '/' ∧ second = '/'
    · obtain ⟨rfl,rfl⟩ := slashes
      have ends : decide ('/' ≠ '/') = false := by decide
      simp only [List.cons_append,cutAuthority]
      rw [takeStops ends,dropStops ends]
    · have none (text : List Char) : cutAuthority (first :: second :: text) = (none,first :: second :: text) := by
        rw [cutAuthority]
        intro text' same
        cases same
        exact slashes ⟨rfl,rfl⟩
      rw [List.cons_append,List.cons_append,none,none]
      rfl

theorem schemeTrimmed (trimmed : base.getLast? ≠ some '/') : (cutScheme base).2.getLast? ≠ some '/' := by
  have suffix : (cutScheme base).2 <:+ base := by
    rw [cutScheme]
    split
    · rename_i behind _ rest
      exact (List.suffix_cons _ _).trans (rest ▸ List.dropWhile_suffix _)
    · exact List.suffix_refl base
  intro last
  obtain ⟨front,whole⟩ := suffix
  rw [← whole,List.getLast?_append,last] at trimmed
  exact trimmed rfl

theorem parseAppend (trimmed : base.getLast? ≠ some '/') (single : tail.head? ≠ some '/')
    (noQuery : '?' ∉ base ++ '/' :: tail) (noFragment : '#' ∉ base ++ '/' :: tail) :
    parse (base ++ '/' :: tail) = (parse base).below ('/' :: tail) := by
  have query : '?' ∉ base := fun inside => noQuery (List.mem_append_left _ inside)
  have fragment : '#' ∉ base := fun inside => noFragment (List.mem_append_left _ inside)
  simp only [parse,cutAbsent noQuery,cutAbsent noFragment,cutAbsent query,cutAbsent fragment,schemeAppend,
    authorityAppend (schemeTrimmed trimmed) single,Reference.below]

theorem parseWhole {text : List Char} (noQuery : '?' ∉ text) (noFragment : '#' ∉ text) :
    (parse text).query = none ∧ (parse text).fragment = none := by
  simp only [parse,cutAbsent noQuery,cutAbsent noFragment,and_self]

theorem parseCuts {text : List Char} (sign : '?' ∈ text ∨ '#' ∈ text) :
    ¬((parse text).query = none ∧ (parse text).fragment = none) := by
  intro ⟨query,fragment⟩
  by_cases number : '#' ∈ text
  · exact cutPresent number fragment
  · have question := sign.resolve_right number
    simp only [parse,cutAbsent number] at query
    exact cutPresent question query

end Append

structure Buffers where
  input : List Char
  output : List Char

/- The segment that stands last, and the slash before it. -/
def dropSegment (output : List Char) : List Char := ((output.reverse.dropWhile (· ≠ '/')).drop 1).reverse

/- A dot segment at the end leaves its slash. -/
def orSlash (rest : List Char) : List Char := if rest = [] then ['/'] else rest

/- One round of the loop, by the first segment of the input; the comments name the rules. -/
def removeStep : Buffers → Buffers
  | ⟨[],output⟩ => ⟨[],output⟩
  | ⟨ch :: input,output⟩ =>
      let segment := input.takeWhile (· ≠ '/')
      let rest := input.dropWhile (· ≠ '/')
      if ch = '/' then
        -- B
        if segment = ['.'] then ⟨orSlash rest,output⟩
        -- C
        else if segment = ['.','.'] then ⟨orSlash rest,dropSegment output⟩
        -- E
        else ⟨rest,output ++ '/' :: segment⟩
      -- A, and D where nothing is left
      else if ch :: segment = ['.'] ∨ ch :: segment = ['.','.'] then ⟨rest.drop 1,output⟩
      -- E
      else ⟨rest,output ++ ch :: segment⟩

def removeDots : (rounds : Nat) → Buffers → List Char
  | 0, b => b.output
  | rounds+1, b => removeDots rounds (removeStep b)

def removeDotSegments (path : List Char) : List Char := removeDots path.length ⟨path,[]⟩

theorem stepSlash {input output segment rest : List Char} (taken : input.takeWhile (· ≠ '/') = segment)
    (left : input.dropWhile (· ≠ '/') = rest) : removeStep ⟨'/' :: input,output⟩ =
      if segment = ['.'] then ⟨orSlash rest,output⟩
      else if segment = ['.','.'] then ⟨orSlash rest,dropSegment output⟩
      else ⟨rest,output ++ '/' :: segment⟩ := by
  rw [← taken,← left]
  rfl

theorem stepOther {ch : Char} {input output segment rest : List Char} (other : ch ≠ '/')
    (taken : input.takeWhile (· ≠ '/') = segment) (left : input.dropWhile (· ≠ '/') = rest) :
    removeStep ⟨ch :: input,output⟩ =
      if ch :: segment = ['.'] ∨ ch :: segment = ['.','.'] then ⟨rest.drop 1,output⟩
      else ⟨rest,output ++ ch :: segment⟩ := by
  rw [← taken,← left]
  exact if_neg other

theorem removeStepShorter {ch : Char} {input output : List Char} :
    (removeStep ⟨ch :: input,output⟩).input.length ≤ input.length := by
  have rest : (input.dropWhile (· ≠ '/')).length ≤ input.length := List.length_dropWhile_le _ input
  have slash {segment : List Char} (named : input.takeWhile (· ≠ '/') = segment) (some' : segment ≠ []) :
      (orSlash (input.dropWhile (· ≠ '/'))).length ≤ input.length := by
    unfold orSlash
    split
    · refine List.length_pos_iff.mpr fun nothing => some' ?_
      rw [← named,nothing]
      rfl
    · exact rest
  simp only [removeStep]
  split
  · split
    · rename_i dot
      exact slash dot (by simp)
    · split
      · rename_i dots
        exact slash dots (by simp)
      · exact rest
  · split
    · rw [List.length_drop]
      exact Nat.le_trans (Nat.sub_le _ _) rest
    · exact rest

theorem removeDotsDone (n : Nat) (output : List Char) : removeDots n ⟨[],output⟩ = output := by
  induction n with
  | zero => rfl
  | succ n ih => exact ih

theorem removeDotsEnough {n m : Nat} {b : Buffers} (enough : b.input.length ≤ n) (also : b.input.length ≤ m) :
    removeDots n b = removeDots m b := by
  induction n generalizing m b with
  | zero =>
    obtain ⟨input,output⟩ := b
    cases List.length_eq_zero_iff.mp (Nat.le_zero.mp enough)
    rw [removeDotsDone,removeDotsDone]
  | succ n ih =>
    obtain ⟨_ | ⟨ch,input⟩,output⟩ := b
    · rw [removeDotsDone,removeDotsDone]
    · obtain ⟨m,rfl⟩ : ∃ k, m = k + 1 := ⟨m - 1,by simp only [List.length_cons] at also; omega⟩
      have shorter : (removeStep ⟨ch :: input,output⟩).input.length ≤ input.length := removeStepShorter
      simp only [List.length_cons] at enough also
      exact ih (by omega) (by omega)

def finish (b : Buffers) : List Char := removeDots b.input.length b

theorem finishDone (output : List Char) : finish ⟨[],output⟩ = output := rfl

theorem finishStep (b : Buffers) : finish (removeStep b) = finish b := by
  obtain ⟨_ | ⟨ch,input⟩,output⟩ := b
  · rfl
  · exact removeDotsEnough (Nat.le_refl _) removeStepShorter

theorem removeStepBefore (ch : Char) (front output : List Char) : ∃ output',
    (∃ front', front'.length ≤ front.length ∧
      ∀ back, removeStep ⟨ch :: (front ++ '/' :: back),output⟩ = ⟨front' ++ '/' :: back,output'⟩) ∨
    ∀ back, removeStep ⟨ch :: (front ++ '/' :: back),output⟩ = ⟨back,output'⟩ := by
  have ends : decide ('/' ≠ '/') = false := by decide
  have left : (front.dropWhile (· ≠ '/')).length ≤ front.length := List.length_dropWhile_le _ front
  have more (back : List Char) : orSlash (front.dropWhile (· ≠ '/') ++ '/' :: back) =
      front.dropWhile (· ≠ '/') ++ '/' :: back := if_neg (by simp)
  by_cases slash : ch = '/'
  · rw [slash]
    by_cases dot : front.takeWhile (· ≠ '/') = ['.']
    · refine ⟨output,.inl ⟨_,left,fun back => ?_⟩⟩
      rw [stepSlash (takeStops ends front back) (dropStops ends front back),if_pos dot,more]
    · by_cases dots : front.takeWhile (· ≠ '/') = ['.','.']
      · refine ⟨dropSegment output,.inl ⟨_,left,fun back => ?_⟩⟩
        rw [stepSlash (takeStops ends front back) (dropStops ends front back),if_neg dot,if_pos dots,more]
      · refine ⟨output ++ '/' :: front.takeWhile (· ≠ '/'),.inl ⟨_,left,fun back => ?_⟩⟩
        rw [stepSlash (takeStops ends front back) (dropStops ends front back),if_neg dot,if_neg dots]
  · by_cases dots : ch :: front.takeWhile (· ≠ '/') = ['.'] ∨ ch :: front.takeWhile (· ≠ '/') = ['.','.']
    · have dropped (back : List Char) : removeStep ⟨ch :: (front ++ '/' :: back),output⟩ =
          ⟨(front.dropWhile (· ≠ '/') ++ '/' :: back).drop 1,output⟩ := by
        rw [stepOther slash (takeStops ends front back) (dropStops ends front back),if_pos dots]
      refine ⟨output,?_⟩
      cases rest : front.dropWhile (· ≠ '/') with
      | nil =>
        rw [rest] at dropped
        exact .inr dropped
      | cons stop front' =>
        rw [rest] at dropped left
        exact .inl ⟨front',Nat.le_trans (Nat.le_succ _) left,dropped⟩
    · refine ⟨output ++ ch :: front.takeWhile (· ≠ '/'),.inl ⟨_,left,fun back => ?_⟩⟩
      rw [stepOther slash (takeStops ends front back) (dropStops ends front back),if_neg dots]

theorem segmentWhole {word : List Char} (plain : '/' ∉ word) :
    word.takeWhile (· ≠ '/') = word ∧ word.dropWhile (· ≠ '/') = [] :=
  ⟨List.takeWhile_eq_self_iff.mpr (allOther plain),List.dropWhile_eq_nil_iff.mpr (allOther plain)⟩

section Directory
variable {word segment : List Char} (plain : '/' ∉ word) (named : word ≠ []) (dot : word ≠ ['.'])
  (dots : word ≠ ['.','.'])
include plain named dot dots

theorem removeStepWord (output : List Char) :
    removeStep ⟨word ++ '/' :: segment,output⟩ = ⟨'/' :: segment,output ++ word⟩ ∧
    removeStep ⟨'/' :: (word ++ '/' :: segment),output⟩ = ⟨'/' :: segment,output ++ '/' :: word⟩ := by
  have ends : decide ('/' ≠ '/') = false := by decide
  constructor
  · obtain ⟨ch,rest,rfl⟩ := List.exists_cons_of_ne_nil named
    have other : ch ≠ '/' := fun same => plain (same ▸ List.mem_cons_self)
    obtain ⟨taken,left⟩ := segmentWhole fun inside => plain (List.mem_cons_of_mem ch inside)
    refine (stepOther other (takeStops ends rest segment) (dropStops ends rest segment)).trans ?_
    rw [taken,left,if_neg (not_or.mpr ⟨dot,dots⟩)]
    rfl
  · obtain ⟨taken,left⟩ := segmentWhole plain
    rw [stepSlash (takeStops ends word segment) (dropStops ends word segment),taken,left,if_neg dot,if_neg dots]
    rfl

theorem finishDirectory (front output : List Char) :
    finish ⟨front ++ '/' :: (word ++ '/' :: segment),output⟩ =
      finish ⟨'/' :: segment,finish ⟨front ++ ['/'],output⟩ ++ word⟩ := by
  generalize size : front.length = n
  induction n using Nat.strong_induction_on generalizing front output with
  | h n ih =>
    cases front with
    | nil =>
      have here : finish ⟨['/'],output⟩ = output ++ ['/'] := rfl
      rw [List.nil_append,List.nil_append,here,← finishStep,(removeStepWord plain named dot dots output).2,
        List.append_assoc]
      rfl
    | cons ch front =>
      obtain ⟨output',⟨front',shorter,step⟩ | step⟩ := removeStepBefore ch front output
      · have shorter' : front'.length < n := by
          rw [← size,List.length_cons]
          exact Nat.lt_succ_of_le shorter
        rw [List.cons_append,List.cons_append,← finishStep,step,← finishStep ⟨ch :: (front ++ ['/']),output⟩,
          step]
        exact ih front'.length shorter' front' output' rfl
      · rw [List.cons_append,List.cons_append,← finishStep,step,← finishStep ⟨ch :: (front ++ ['/']),output⟩,
          step,finishDone,← finishStep,(removeStepWord plain named dot dots output').1]

end Directory

section Last
variable {segment : List Char} (plain : '/' ∉ segment)
include plain

theorem finishSegment (dot : segment ≠ ['.']) (dots : segment ≠ ['.','.']) (output : List Char) :
    finish ⟨'/' :: segment,output⟩ = output ++ '/' :: segment := by
  obtain ⟨taken,left⟩ := segmentWhole plain
  rw [← finishStep,stepSlash taken left,if_neg dot,if_neg dots,finishDone]

end Last

theorem finishDot (output : List Char) : finish ⟨['/','.'],output⟩ = output ++ ['/'] := rfl

theorem finishDots (output : List Char) : finish ⟨['/','.','.'],output⟩ = dropSegment output ++ ['/'] := rfl

section Paths
variable {word : List Char} (plain : '/' ∉ word) (named : word ≠ []) (dot : word ≠ ['.'])
  (dots : word ≠ ['.','.'])
include plain named dot dots

theorem removeDotSegmentsPlain (front : List Char) {segment : List Char} (single : '/' ∉ segment)
    (noDot : segment ≠ ['.']) (noDots : segment ≠ ['.','.']) :
    removeDotSegments (front ++ '/' :: (word ++ '/' :: segment)) =
      removeDotSegments (front ++ ['/']) ++ word ++ '/' :: segment :=
  (finishDirectory plain named dot dots front []).trans (finishSegment single noDot noDots _)

theorem removeDotSegmentsDot (front : List Char) :
    removeDotSegments (front ++ '/' :: (word ++ ['/','.'])) = removeDotSegments (front ++ ['/']) ++ word ++ ['/'] :=
  (finishDirectory plain named dot dots front []).trans (finishDot _)

theorem removeDotSegmentsDots (front : List Char) :
    removeDotSegments (front ++ '/' :: (word ++ ['/','.','.'])) =
      dropSegment (removeDotSegments (front ++ ['/']) ++ word) ++ ['/'] :=
  (finishDirectory plain named dot dots front []).trans (finishDots _)

end Paths

theorem dropSegmentWord {word : List Char} (plain : '/' ∉ word) (output : List Char) :
    dropSegment (output ++ word) = dropSegment output := by
  have letters : ∀ ch ∈ word.reverse, decide (ch ≠ '/') = true := allOther (mt List.mem_reverse.mp plain)
  rw [dropSegment,List.reverse_append,List.dropWhile_append_of_pos letters]
  rfl

theorem dropSegmentShorter (output : List Char) : (dropSegment output).length ≤ output.length := by
  have rest := List.length_dropWhile_le (· ≠ '/') output.reverse
  rw [List.length_reverse] at rest
  rw [dropSegment,List.length_reverse,List.length_drop]
  exact Nat.le_trans (Nat.sub_le _ _) rest

end SssdOidc.Uri
