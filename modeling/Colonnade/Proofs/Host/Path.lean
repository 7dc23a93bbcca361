/-
What the text of a path says. A path is its pieces with slashes between them,
and the directories around it are spelled by the first of its pieces. So each
of them is the start of the path that it is around, and between the two there
is at least one name.

Chain: `Host.Volume` walks paths and goes by their names only.
-/
import Colonnade.Host.Path
import Mathlib.Data.List.Chain

namespace Colonnade.Path

-- ============================================================== pieces

theorem split_eq_splitOn (cs : List Char) :
    pieces.split cs = cs.splitOn '/' := by
  induction cs with
  | nil => rfl
  | cons c cs ih =>
      rw [List.splitOn_cons_eq_if_modifyHead, ← ih]
      simp only [pieces.split]
      split
      · rfl
      · cases hruns : pieces.split cs with
        | nil => exact absurd (ih.symm.trans hruns) (List.splitOn_ne_nil '/' cs)
        | cons run runs => rfl

/-- The pieces of a path are what stands between its slashes. -/
theorem pieces_eq (path : String) :
    pieces path = (path.toList.splitOn '/').map String.ofList :=
  congrArg _ (split_eq_splitOn _)

/-- No piece has a slash in it. -/
theorem slash_notMem_of_mem_pieces {path piece : String}
    (h : piece ∈ pieces path) : '/' ∉ piece.toList := by
  have hruns (cs : List Char) : ∀ run ∈ pieces.split cs, '/' ∉ run := by
    induction cs with
    | nil => simp [pieces.split]
    | cons c cs ih =>
        simp only [pieces.split]
        split
        · simpa using ih
        next hc =>
          have hother : '/' ≠ c := fun heq => hc (by simp [← heq])
          cases hrest : pieces.split cs with
          | nil => simpa using hother
          | cons run runs =>
              rw [hrest] at ih
              simpa [hother] using ih
  obtain ⟨run, hrun, rfl⟩ := List.mem_map.1 h
  rw [String.toList_ofList]
  exact hruns _ run hrun

/-- A path is its pieces with slashes between them. -/
theorem intercalate_pieces (path : String) :
    "/".intercalate (pieces path) = path := by
  rw [pieces_eq, ← String.toList_inj, String.toList_intercalate, List.map_map]
  have hchars : String.toList ∘ String.ofList = id :=
    funext fun _ => String.toList_ofList
  rw [hchars, List.map_id]
  exact List.intercalate_splitOn '/'

/-- Texts without slashes are the pieces of what they spell. -/
theorem pieces_intercalate {ls : List String} (hne : ls ≠ [])
    (h : ∀ l ∈ ls, '/' ∉ l.toList) : pieces ("/".intercalate ls) = ls := by
  have hsplit : (['/'].intercalate (ls.map String.toList)).splitOn '/'
      = ls.map String.toList :=
    List.splitOn_intercalate '/' (by simpa using h) (by simpa using hne)
  have hback : String.ofList ∘ String.toList = id :=
    funext fun _ => String.ofList_toList
  rw [pieces_eq, String.toList_intercalate]
  show ((['/'].intercalate (ls.map String.toList)).splitOn '/').map _ = ls
  rw [hsplit, List.map_map, hback, List.map_id]

/-- The names of a path within a directory are the directory's and more. -/
theorem names_append (outer inner : String) :
    names (outer ++ "/" ++ inner) = names outer ++ names inner := by
  have hchars : (outer ++ "/" ++ inner).toList
      = outer.toList ++ '/' :: inner.toList := by simp
  unfold names
  rw [pieces_eq, hchars, List.splitOn_append_cons_self, List.map_append,
    List.filter_append, ← pieces_eq, ← pieces_eq]

-- ============================================================== around

/-- Whether the text of a path starts with that of a directory and goes on
with at least one name. -/
def Inside (path outer : String) : Prop :=
  ∃ inner, path = outer ++ "/" ++ inner ∧ outer ≠ "" ∧ names inner ≠ []

/-- What pieces spell, the last one first. -/
def spelled (ls : List String) : String := "/".intercalate ls.reverse

theorem names_spelled_ne_nil {ls : List String} {piece : String}
    (h : ∀ l ∈ ls, '/' ∉ l.toList) (hpiece : piece ∈ ls) (hne : piece ≠ "") :
    names (spelled ls) ≠ [] := by
  have hpieces : pieces (spelled ls) = ls.reverse :=
    pieces_intercalate (by simpa using List.ne_nil_of_mem hpiece)
      (by simpa using h)
  have hmem : piece ∈ names (spelled ls) := by
    unfold names
    rw [hpieces]
    simpa using ⟨hpiece, hne⟩
  exact List.ne_nil_of_mem hmem

/-- Two parts of a path are spelled with a slash between them. -/
theorem spelled_append {ls ms : List String} (hls : ls ≠ []) (hms : ms ≠ []) :
    spelled (ls ++ ms) = spelled ms ++ "/" ++ spelled ls := by
  unfold spelled
  rw [List.reverse_append]
  exact String.intercalate_append_of_ne_nil (by simpa using hms)
    (by simpa using hls)

theorem spellings_cons_stays {l : String} (ls : List String)
    (h : staysPut l = true) : spellings (l :: ls) = spellings ls :=
  if_pos h

/-- One more name is one more spelling. -/
theorem spellings_cons_name {l : String} (ls : List String)
    (h : ¬ staysPut l = true) :
    spellings (l :: ls) = spelled (l :: ls) :: spellings ls :=
  if_neg h

theorem ne_empty_of_not_staysPut {l : String} (h : ¬ staysPut l = true) :
    l ≠ "" := by
  rintro rfl
  exact h rfl

/-- A path is inside the first directory that some of its pieces spell if
there is a name among the others, and each of those is inside the next. -/
theorem isChain_spellings {ls front : List String}
    (h : ∀ l ∈ front ++ ls, '/' ∉ l.toList) {piece : String}
    (hpiece : piece ∈ front) (hne : piece ≠ "") :
    (spelled (front ++ ls) :: spellings ls).IsChain Inside := by
  induction ls generalizing front piece with
  | nil => exact .singleton _
  | cons l ls ih =>
      have hrest : front ++ l :: ls = (front ++ [l]) ++ ls := by simp
      by_cases hstays : staysPut l = true
      · rw [spellings_cons_stays ls hstays, hrest]
        exact ih (hrest ▸ h) (List.mem_append_left _ hpiece) hne
      · have hname := ne_empty_of_not_staysPut hstays
        have hls : ∀ m ∈ l :: ls, '/' ∉ m.toList :=
          fun m hm => h m (List.mem_append_right _ hm)
        have houter : spelled (l :: ls) ≠ "" := by
          intro hempty
          exact names_spelled_ne_nil hls (List.mem_cons_self ..) hname
            (hempty ▸ rfl)
        have hfront := names_spelled_ne_nil
          (fun m hm => h m (List.mem_append_left _ hm)) hpiece hne
        rw [spellings_cons_name ls hstays]
        refine List.isChain_cons_cons.2
          ⟨⟨spelled front, ?_, houter, hfront⟩, ?_⟩
        · exact spelled_append (List.ne_nil_of_mem hpiece)
            (List.cons_ne_nil l ls)
        · exact @ih [l] hls l (List.mem_singleton_self l) hname

/-- What is spelled first ends in the last name; the rest is spelled by what
is before that name. -/
theorem spellings_cases (ls : List String) :
    spellings ls = []
      ∨ ∃ skipped piece before, ls = skipped ++ piece :: before
        ∧ piece ≠ "" ∧ (spellings ls).drop 1 = spellings before := by
  induction ls with
  | nil => exact .inl rfl
  | cons l ls ih =>
      by_cases hstays : staysPut l = true
      · rw [spellings_cons_stays ls hstays]
        refine ih.imp id ?_
        rintro ⟨skipped, piece, before, rfl, hne, hdrop⟩
        exact ⟨l :: skipped, piece, before, rfl, hne, hdrop⟩
      · rw [spellings_cons_name ls hstays]
        exact .inr ⟨[], l, ls, rfl, ne_empty_of_not_staysPut hstays, rfl⟩

/-- A path is inside the innermost directory around it, and each of those is
inside the next. -/
theorem isChain_around (path : String) :
    (path :: around path).IsChain Inside := by
  have hpath : spelled (pieces path).reverse = path := by
    unfold spelled
    rw [List.reverse_reverse]
    exact intercalate_pieces path
  have hpieces : ∀ l ∈ (pieces path).reverse, '/' ∉ l.toList := by
    simpa using fun l hl => slash_notMem_of_mem_pieces hl
  unfold around
  rcases spellings_cases (pieces path).reverse with
    hnone | ⟨skipped, piece, before, hparts, hne, hdrop⟩
  · rw [hnone]
    exact .singleton path
  · have hmem : piece ∈ skipped ++ [piece] :=
      List.mem_append_right _ (List.mem_singleton_self piece)
    have hfront : (pieces path).reverse = (skipped ++ [piece]) ++ before := by
      simpa using hparts
    have hchain := isChain_spellings (hfront ▸ hpieces) hmem hne
    rw [← hfront, hpath] at hchain
    rw [hdrop]
    exact hchain

-- ============================================================= joining

/-- What is in a directory under a name does not end in a slash. -/
theorem endsInSlash_join (directory : String) {name : String}
    (hne : name ≠ "") (h : endsInSlash name = false) :
    endsInSlash (join directory name) = false := by
  have hlast (front : String) :
      endsInSlash (front ++ name) = endsInSlash name := by
    unfold endsInSlash
    rw [String.toList_append,
      List.getLast?_append_of_ne_nil _ (by simpa using hne)]
  unfold join
  split
  · rw [hlast, h]
  · rw [hlast, h]

/-- Where a path starts is told by how its text starts. -/
theorem startsAtTop_append {front : String} (h : front ≠ "")
    (rest : String) : startsAtTop (front ++ rest) = startsAtTop front := by
  unfold startsAtTop
  rw [String.toList_append,
    List.head?_append_of_ne_nil _ (by simpa using h)]

/-- A path starts where its directory does. -/
theorem startsAtTop_join {directory : String} (h : directory ≠ "")
    (name : String) :
    startsAtTop (join directory name) = startsAtTop directory := by
  unfold join
  split
  · exact startsAtTop_append h name
  · rw [String.append_assoc]
    exact startsAtTop_append h _

/-- The names of what is in a directory are the directory's and its own. -/
theorem names_join {directory : String} (h : directory ≠ "")
    (name : String) :
    names (join directory name) = names directory ++ names name := by
  unfold join
  split
  next hjoin =>
    have hslash : endsInSlash directory = true := by
      simpa [h] using hjoin
    obtain ⟨front, hfront⟩ :=
      List.getLast?_eq_some_iff.1 (beq_iff_eq.1 hslash)
    have hdirectory : directory = String.ofList front ++ "/" := by
      rw [← String.toList_inj]
      simpa using hfront
    have hempty := names_append (String.ofList front) ""
    rw [String.append_empty, show names "" = [] by decide,
      List.append_nil] at hempty
    rw [hdirectory, names_append, hempty]
  next => exact names_append directory name

end Colonnade.Path
