import Codename.Files.Path
import Mathlib.Data.List.TakeWhile

/-!
# Components of paths

Dropping the last component of a path and joining two paths are work on texts, in which slashes may
be repeated or stand at the end and components may be `.`. Seen through the components that say
something, the first drops the last component and the second puts the components of the two paths
behind each other.

## Main definitions

* `parts` — the components that say something, as lists of characters.

## Main statements

* `parent?_of_components_ne_nil` — the path without its last component.
* `components_join` — the components of joined paths.
* `components_resolve` — a relative locator starts at the directory of the file it is written in.
-/

namespace Codename.Path

/-- The components of a text that say something. -/
def parts (text : List Char) : List (List Char) :=
  (cut text).filter fun part => part ≠ [] && part ≠ ['.']

variable {text name body start : List Char}

theorem components_eq (path : String) : components path = (parts path.toList).map String.ofList :=
  rfl

theorem isAbsolute_iff {path : String} :
    isAbsolute path = true ↔ path.toList.head? = some '/' := by
  simp [isAbsolute]

/-! ### Cutting at slashes -/

theorem cut_ne_nil (text : List Char) : cut text ≠ [] := by
  cases text with
  | nil => simp [cut]
  | cons c text =>
    rw [cut]
    split
    · simp
    · split <;> simp

theorem cut_append_slash (left right : List Char) :
    cut (left ++ '/' :: right) = cut left ++ cut right := by
  induction left with
  | nil => simp [cut]
  | cons c left ih =>
    rw [List.cons_append, cut, cut, ih]
    by_cases hc : c = '/'
    · simp [hc]
    · -- the character joins the first part of the text behind it, which there always is
      obtain ⟨part, later, hcut⟩ := List.exists_cons_of_ne_nil (cut_ne_nil left)
      simp [hc, hcut]

theorem cut_of_not_mem (h : '/' ∉ name) : cut name = [name] := by
  induction name with
  | nil => rfl
  | cons c name ih =>
    rw [List.mem_cons, not_or] at h
    rw [cut, if_neg (Ne.symm h.1), ih h.2]

theorem parts_append_slash (left right : List Char) :
    parts (left ++ '/' :: right) = parts left ++ parts right := by
  rw [parts, cut_append_slash, List.filter_append]
  rfl

@[simp] theorem parts_nil : parts [] = [] := rfl

@[simp] theorem parts_dot : parts ['.'] = [] := rfl

@[simp] theorem parts_slash_cons (text : List Char) : parts ('/' :: text) = parts text :=
  parts_append_slash [] text

@[simp] theorem parts_dot_slash_cons (text : List Char) :
    parts ('.' :: '/' :: text) = parts text :=
  parts_append_slash ['.'] text

/-- A component that says something. -/
structure IsName (name : List Char) : Prop where
  ne_nil : name ≠ []
  ne_dot : name ≠ ['.']
  not_mem : '/' ∉ name

theorem IsName.parts_eq (h : IsName name) : parts name = [name] := by
  rw [parts, cut_of_not_mem h.not_mem]
  simp [h.ne_nil, h.ne_dot]

theorem IsName.reverse (h : IsName name) : IsName name.reverse where
  ne_nil := by simpa using h.ne_nil
  ne_dot := by
    intro heq
    exact h.ne_dot (by simpa using congrArg List.reverse heq)
  not_mem := by simpa using h.not_mem

/-! ### Texts read backwards -/

/-- What says nothing is dropped from the end of a text, read backwards. -/
theorem parts_reverse_dropSilent (text : List Char) :
    parts (dropSilent text).reverse = parts text.reverse := by
  fun_induction dropSilent text with
  | case1 rest ih => rw [ih, List.reverse_cons, parts_append_slash, parts_nil, List.append_nil]
  | case2 rest ih =>
    rw [ih, List.reverse_cons, List.reverse_cons, List.append_assoc, List.singleton_append,
      parts_append_slash, parts_dot, List.append_nil]
  | case3 => rfl
  | case4 => rfl

theorem dropSilent_suffix (text : List Char) : dropSilent text <:+ text := by
  fun_induction dropSilent text with
  | case1 rest ih => exact ih.trans (List.suffix_cons _ _)
  | case2 rest ih => exact (ih.trans (List.suffix_cons _ _)).trans (List.suffix_cons _ _)
  | case3 => exact List.nil_suffix
  | case4 => exact List.suffix_rfl

/-- What is behind the first component of a text is nothing, or starts with a slash. -/
theorem dropWhile_eq_nil_or (text : List Char) :
    text.dropWhile (· ≠ '/') = [] ∨ ∃ rest, text.dropWhile (· ≠ '/') = '/' :: rest := by
  cases hrest : text.dropWhile (· ≠ '/') with
  | nil => exact .inl rfl
  | cons c rest =>
    have hhead := List.head?_dropWhile_not (· ≠ '/') text
    rw [hrest] at hhead
    have hc : c = '/' := by simpa using hhead
    exact .inr ⟨rest, by rw [hc]⟩

/-- Then a component that says something comes first, unless none is left. -/
theorem isName_takeWhile_dropSilent (h : dropSilent text ≠ []) :
    IsName ((dropSilent text).takeWhile (· ≠ '/')) := by
  fun_induction dropSilent text with
  | case1 rest ih => exact ih h
  | case2 rest ih => exact ih h
  | case3 => exact absurd rfl h
  | case4 text hslash hdotSlash hdot =>
    refine ⟨?_, ?_, fun hmem => by simpa using List.mem_takeWhile_imp hmem⟩
    · obtain ⟨c, rest, rfl⟩ := List.exists_cons_of_ne_nil h
      have hc : c ≠ '/' := fun heq => hslash rest (by rw [heq])
      simp [hc]
    · intro heq
      -- a lone dot has the end of the text or a slash behind it
      have hsplit := List.takeWhile_append_dropWhile (p := (· ≠ '/')) (l := text)
      rw [heq] at hsplit
      obtain hrest | ⟨rest, hrest⟩ := dropWhile_eq_nil_or text
      · rw [hrest] at hsplit
        exact hdot hsplit.symm
      · rw [hrest] at hsplit
        exact hdotSlash rest hsplit.symm

/-- The text in front of the last component, without the slashes between them. -/
def front (body : List Char) : List Char :=
  (dropSilent ((dropSilent body.reverse).dropWhile (· ≠ '/'))).reverse

theorem front_prefix (body : List Char) : front body <+: body := by
  rw [front, ← List.reverse_suffix, List.reverse_reverse]
  exact ((dropSilent_suffix _).trans (List.dropWhile_suffix _)).trans (dropSilent_suffix _)

/-- If anything is left, the text still starts as it did. -/
theorem front_eq_nil_or (body : List Char) : front body = [] ∨ (front body).head? = body.head? := by
  obtain ⟨back, hback⟩ := front_prefix body
  cases hfront : front body with
  | nil => exact .inl rfl
  | cons c rest =>
    rw [hfront] at hback
    exact .inr (by rw [← hback]; rfl)

theorem parts_eq_nil_of_dropSilent (h : dropSilent body.reverse = []) : parts body = [] := by
  have hparts := parts_reverse_dropSilent body.reverse
  rw [h, List.reverse_reverse] at hparts
  exact hparts.symm

theorem parts_front (h : dropSilent body.reverse ≠ []) :
    parts (front body) = (parts body).dropLast := by
  have hname := (isName_takeWhile_dropSilent h).reverse
  have hsplit := List.takeWhile_append_dropWhile (p := (· ≠ '/')) (l := dropSilent body.reverse)
  have hbody : parts body = parts (dropSilent body.reverse).reverse := by
    rw [parts_reverse_dropSilent, List.reverse_reverse]
  have hreverse := congrArg List.reverse hsplit
  rw [List.reverse_append] at hreverse
  rw [front, parts_reverse_dropSilent, hbody, ← hreverse]
  obtain hrest | ⟨rest, hrest⟩ := dropWhile_eq_nil_or (dropSilent body.reverse)
  · rw [hrest, List.reverse_nil, List.nil_append, hname.parts_eq]
    rfl
  · rw [hrest, List.reverse_cons, List.append_assoc, List.singleton_append, parts_append_slash,
      parts_append_slash, hname.parts_eq]
    simp

/-! ### Paths without their last component -/

/-- The root, or the `.` of a relative path, is split off in front of a slash or at the end. -/
theorem splitStart_cases (text : List Char) :
    (∃ body, text = '/' :: body ∧ splitStart text = (['/'], body)) ∨
      (∃ body, text = '.' :: body ∧ splitStart text = (['.'], body) ∧
        (body = [] ∨ ∃ rest, body = '/' :: rest)) ∨
      (text.head? ≠ some '/' ∧ splitStart text = ([], text)) := by
  unfold splitStart
  split
  · next body => exact .inl ⟨body, rfl, rfl⟩
  · exact .inr (.inl ⟨[], rfl, rfl, .inl rfl⟩)
  · next rest => exact .inr (.inl ⟨'/' :: rest, rfl, rfl, .inr ⟨rest, rfl⟩⟩)
  · next hroot _ _ =>
    refine .inr (.inr ⟨fun hhead => ?_, rfl⟩)
    obtain ⟨rest, rfl⟩ := List.head?_eq_some_iff.1 hhead
    exact hroot rest rfl

theorem parts_dot_cons (h : body = [] ∨ ∃ rest, body = '/' :: rest) :
    parts ('.' :: body) = parts body := by
  obtain rfl | ⟨rest, rfl⟩ := h
  · rfl
  · rw [parts_dot_slash_cons, parts_slash_cons]

theorem parent?_eq {path : String} (hsplit : splitStart path.toList = (start, body))
    (h : dropSilent body.reverse ≠ []) :
    parent? path = some (String.ofList (start ++ front body)) := by
  rw [parent?, hsplit]
  simp only [front]

/-- A path without its last component says all that the path says but for this component. -/
theorem parent?_of_components_ne_nil {path : String} (h : components path ≠ []) :
    ∃ directory, parent? path = some directory ∧
      components directory = (components path).dropLast ∧
      isAbsolute directory = isAbsolute path := by
  have hparts : parts path.toList ≠ [] := fun hnil => h (by rw [components_eq, hnil]; rfl)
  have hbody : ∀ {body}, parts path.toList = parts body → dropSilent body.reverse ≠ [] :=
    fun hsame hnil => hparts (hsame.trans (parts_eq_nil_of_dropSilent hnil))
  simp only [components_eq, isAbsolute, ← List.map_dropLast]
  obtain ⟨body, hpath, hsplit⟩ | ⟨body, hpath, hsplit, hstart⟩ | ⟨hhead, hsplit⟩ :=
    splitStart_cases path.toList
  · -- an absolute path
    have hsame : parts path.toList = parts body := by rw [hpath, parts_slash_cons]
    refine ⟨_, parent?_eq hsplit (hbody hsame), ?_, by simp [hpath]⟩
    rw [String.toList_ofList, List.singleton_append, parts_slash_cons, parts_front (hbody hsame),
      hsame]
  · -- a relative path that starts with a dot; what is left of its body may be empty
    have hsame : parts path.toList = parts body := by rw [hpath, parts_dot_cons hstart]
    refine ⟨_, parent?_eq hsplit (hbody hsame), ?_, by simp [hpath]⟩
    have hfront : front body = [] ∨ ∃ rest, front body = '/' :: rest := by
      obtain hnil | hhead := front_eq_nil_or body
      · exact .inl hnil
      · obtain rfl | ⟨rest, rfl⟩ := hstart
        · exact .inl (List.head?_eq_none_iff.1 hhead)
        · exact .inr (List.head?_eq_some_iff.1 hhead)
    rw [String.toList_ofList, List.singleton_append, parts_dot_cons hfront,
      parts_front (hbody hsame), hsame]
  · -- a relative path of components only
    refine ⟨_, parent?_eq hsplit (hbody rfl), ?_, ?_⟩
    · rw [String.toList_ofList, List.nil_append, parts_front (hbody rfl)]
    · have hrelative : (front path.toList).head? ≠ some '/' := by
        obtain hnil | hsame := front_eq_nil_or path.toList
        · simp [hnil]
        · rwa [hsame]
      rw [String.toList_ofList, List.nil_append, beq_false_of_ne hrelative, beq_false_of_ne hhead]

/-! ### Joined paths -/

section Join

variable {path : String}

/-- The directory is empty, or exactly one slash is between it and the path. -/
theorem join_cases (h : isAbsolute path = false) (directory : String) :
    (directory = "" ∧ join directory path = path) ∨
      (∃ outer, directory.toList = outer ++ ['/'] ∧
        (join directory path).toList = outer ++ '/' :: path.toList) ∨
      (directory ≠ "" ∧ (join directory path).toList = directory.toList ++ '/' :: path.toList) := by
  rw [join, if_neg (by simp [h])]
  split
  · next hplain =>
    rw [Bool.or_eq_true, String.isEmpty_iff, beq_iff_eq] at hplain
    obtain rfl | hlast := hplain
    · exact .inl ⟨rfl, String.empty_append⟩
    · obtain ⟨outer, houter⟩ := List.getLast?_eq_some_iff.1 hlast
      exact .inr (.inl ⟨outer, houter, by simp [houter]⟩)
  · next hplain =>
    have hne : directory ≠ "" := by
      rintro rfl
      exact hplain rfl
    exact .inr (.inr ⟨hne, by simp⟩)

theorem components_join (h : isAbsolute path = false) (directory : String) :
    components (join directory path) = components directory ++ components path := by
  simp only [components_eq, ← List.map_append]
  obtain ⟨rfl, hjoin⟩ | ⟨outer, houter, hjoin⟩ | ⟨-, hjoin⟩ := join_cases h directory
  · rw [hjoin]
    rfl
  · rw [hjoin, houter, parts_append_slash, parts_append_slash, parts_nil, List.append_nil]
  · rw [hjoin, parts_append_slash]

theorem isAbsolute_join (h : isAbsolute path = false) (directory : String) :
    isAbsolute (join directory path) = isAbsolute directory := by
  obtain ⟨rfl, hjoin⟩ | ⟨outer, houter, hjoin⟩ | ⟨hne, hjoin⟩ := join_cases h directory
  · rw [hjoin, h]
    rfl
  · rw [isAbsolute, isAbsolute, hjoin, houter]
    cases outer <;> rfl
  · rw [isAbsolute, isAbsolute, hjoin]
    cases hdirectory : directory.toList with
    | nil => exact absurd (String.toList_eq_nil_iff.1 hdirectory) hne
    | cons c rest => rfl

end Join

/-! ### Locators -/

/-- A locator that starts with a slash stands for itself. Any other one starts at the directory of
the file it is written in: it leads through the components of the file but for the last one, and
then through its own. So it leads from the root if the file does. -/
theorem components_resolve {file : String} (hfile : components file ≠ []) (locator : String) :
    (locator.toList.head? = some '/' → resolve file locator = locator) ∧
      (locator.toList.head? ≠ some '/' →
        components (resolve file locator) = (components file).dropLast ++ components locator ∧
          isAbsolute (resolve file locator) = isAbsolute file) := by
  constructor
  · intro hroot
    rw [resolve, if_pos (isAbsolute_iff.2 hroot)]
  · intro hrelative
    have hlocator : isAbsolute locator = false := by
      rw [← Bool.not_eq_true, isAbsolute_iff]
      exact hrelative
    obtain ⟨directory, hparent, hcomponents, habsolute⟩ := parent?_of_components_ne_nil hfile
    have hresolve : resolve file locator = join directory locator := by
      rw [resolve, if_neg (by simp [hlocator]), hparent]
    rw [hresolve, components_join hlocator, isAbsolute_join hlocator, hcomponents, habsolute]
    exact ⟨rfl, rfl⟩

/-- Slashes and dots around the last component of the file go with it. -/
theorem components_resolve_catalog :
    components "//etc/./psencrypt//catalog.json/./" ≠ [] ∧
      "./maps//crm.json".toList.head? ≠ some '/' ∧
      components (resolve "//etc/./psencrypt//catalog.json/./" "./maps//crm.json") =
        ["etc", "psencrypt", "maps", "crm.json"] ∧
      resolve "//etc/./psencrypt//catalog.json/./" "/srv/crm.json" = "/srv/crm.json" := by
  have hfile : components "//etc/./psencrypt//catalog.json/./" ≠ [] := by decide +kernel
  have hlocator : "./maps//crm.json".toList.head? ≠ some '/' := by decide
  obtain ⟨hcomponents, -⟩ := (components_resolve hfile "./maps//crm.json").2 hlocator
  exact ⟨hfile, hlocator, hcomponents.trans (by decide +kernel),
    (components_resolve hfile "/srv/crm.json").1 (by decide)⟩

end Codename.Path
