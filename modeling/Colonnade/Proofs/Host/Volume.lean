/-
Volumes only grow. No step of a volume takes anything out of it or makes a
directory of a file, so a path that leads somewhere leads there from then on,
whatever else is made or written (`Within`).

Each step has one lemma that says how it ends. Opening a file finds it or
makes it, and changes nothing if it fails. Making a directory and those
around it ends with a directory under the path, or with none: where there is
one under a path there is one under every path that it is inside.

Chain: `Host.Filed` opens a file again and again, and `Host.Locks` follows
the locks on files.
-/
import Colonnade.Host.Volume
import Colonnade.Proofs.Edit
import Colonnade.Proofs.Host.Path
import Colonnade.Proofs.OrderedMap

namespace Colonnade.Volume

variable {u v w : Volume} {p q : Place} {x : VolumeEntry} {path : String}

-- ============================================================ entries

/-- What is put at a place is found there, unless the place is one that is
given. -/
theorem entryAt?_put (v : Volume) (p q : Place) (x : VolumeEntry) :
    (v.put p x).entryAt? q
      = if q.isGiven then some .directory
        else if q = p then some x else v.entryAt? q := by
  unfold entryAt? put
  split
  · rfl
  · exact OrderedMap.getElem?_insert ..

/-- A file is never at a place that is given. -/
theorem isGiven_eq_false_of_file {bytes : Bytes}
    (h : v.entryAt? p = some (.file bytes)) : p.isGiven = false := by
  unfold entryAt? at h
  split at h
  · cases h
  next hgiven => exact Bool.eq_false_iff.2 hgiven

/-- There is always something at a place that is given. -/
theorem isGiven_eq_false_of_none (h : v.entryAt? p = none) :
    p.isGiven = false := by
  unfold entryAt? at h
  split at h
  · cases h
  next hgiven => exact Bool.eq_false_iff.2 hgiven

theorem entryAt?_put_self (v : Volume) (x : VolumeEntry)
    (h : p.isGiven = false) : (v.put p x).entryAt? p = some x := by
  rw [entryAt?_put, h, if_neg Bool.false_ne_true, if_pos rfl]

-- ============================================================ growing

/-- Whether all that is in one volume is in another, files as files and
directories as directories. -/
def Within (v w : Volume) : Prop :=
  ∀ p x, v.entryAt? p = some x →
    ∃ y, w.entryAt? p = some y ∧ (y = .directory ↔ x = .directory)

theorem Within.refl (v : Volume) : v.Within v := fun _ x h => ⟨x, h, Iff.rfl⟩

/-- A volume that lies within another lies within what that one lies within.
-/
theorem Within.trans (h : u.Within v) (h' : v.Within w) : u.Within w := by
  intro p x hx
  obtain ⟨y, hy, hkind⟩ := h p x hx
  obtain ⟨z, hz, hkind'⟩ := h' p y hy
  exact ⟨z, hz, hkind'.trans hkind⟩

/-- The locks are no part of it. -/
theorem Within.locks (h : v.Within w) (locks : List Place) :
    v.Within { w with locks } := h

/-- A volume lies within what it becomes, as long as directories stay
directories and files stay files. -/
theorem within_put (h : ∀ y, v.entryAt? p = some y →
    (x = .directory ↔ y = .directory)) : v.Within (v.put p x) := by
  intro q y hy
  rw [entryAt?_put]
  by_cases hgiven : q.isGiven = true
  · have hdirectory : y = .directory := by
      unfold entryAt? at hy
      rw [if_pos hgiven] at hy
      exact (Option.some.inj hy).symm
    rw [if_pos hgiven]
    exact ⟨.directory, rfl, by simp [hdirectory]⟩
  · rw [if_neg hgiven]
    by_cases hself : q = p
    · subst hself
      rw [if_pos rfl]
      exact ⟨x, rfl, h y hy⟩
    · rw [if_neg hself]
      exact ⟨y, hy, Iff.rfl⟩

/-- A directory stays a directory. -/
theorem Within.directory (h : v.Within w)
    (hp : v.entryAt? p = some .directory) :
    w.entryAt? p = some .directory := by
  obtain ⟨y, hy, hkind⟩ := h p _ hp
  rw [hy, hkind.2 rfl]

/-- A file stays a file. -/
theorem Within.file (h : v.Within w) {bytes : Bytes}
    (hp : v.entryAt? p = some (.file bytes)) :
    ∃ bytes', w.entryAt? p = some (.file bytes') := by
  obtain ⟨y, hy, hkind⟩ := h p _ hp
  cases y with
  | file bytes' => exact ⟨bytes', hy⟩
  | directory => cases hkind.1 rfl

-- ============================================================ walking

/-- Only directories are entered. -/
theorem enter_eq_ok :
    v.enter p = .ok () ↔ v.entryAt? p = some .directory := by
  unfold enter
  cases v.entryAt? p with
  | none => simp
  | some x => cases x <;> simp

/-- A step starts from a directory. -/
theorem enter_of_step {name : String} (h : v.step p name = .ok q) :
    v.enter p = .ok () := by
  unfold step at h
  cases henter : v.enter p with
  | ok u => rfl
  | error e =>
      rw [henter] at h
      cases h

theorem Within.enter (h : v.Within w) (hp : v.enter p = .ok ()) :
    w.enter p = .ok () :=
  enter_eq_ok.2 (h.directory (enter_eq_ok.1 hp))

/-- A step along a path can still be taken. -/
theorem Within.step (h : v.Within w) {name : String}
    (hstep : v.step p name = .ok q) : w.step p name = .ok q := by
  have henter := enter_of_step hstep
  unfold Volume.step at hstep ⊢
  rw [henter] at hstep
  rw [h.enter henter]
  exact hstep

theorem foldlM_cons_eq_ok {name : String} {names : List String} :
    (name :: names).foldlM v.step p = .ok q
      ↔ ∃ m, v.step p name = .ok m ∧ names.foldlM v.step m = .ok q := by
  rw [List.foldlM_cons]
  cases v.step p name with
  | ok m =>
      exact ⟨fun h => ⟨m, rfl, h⟩, fun ⟨_, hm, h⟩ => by cases hm; exact h⟩
  | error e => exact ⟨nofun, fun ⟨_, hm, _⟩ => nomatch hm⟩

/-- A path is walked through its first part and then through the rest. -/
theorem foldlM_append_eq_ok {names names' : List String} :
    (names ++ names').foldlM v.step p = .ok q
      ↔ ∃ m, names.foldlM v.step p = .ok m
        ∧ names'.foldlM v.step m = .ok q := by
  rw [List.foldlM_append]
  cases names.foldlM v.step p with
  | ok m =>
      exact ⟨fun h => ⟨m, rfl, h⟩, fun ⟨_, hm, h⟩ => by cases hm; exact h⟩
  | error e => exact ⟨nofun, fun ⟨_, hm, _⟩ => nomatch hm⟩

/-- A path can still be walked. -/
theorem Within.steps (h : v.Within w) {names : List String}
    (hsteps : names.foldlM v.step p = .ok q) :
    names.foldlM w.step p = .ok q := by
  induction names generalizing p with
  | nil => exact hsteps
  | cons name names ih =>
      obtain ⟨m, hstep, hrest⟩ := foldlM_cons_eq_ok.1 hsteps
      exact foldlM_cons_eq_ok.2 ⟨m, h.step hstep, ih hrest⟩

/-- A path leads to where its names lead, if it may be asked for at all. -/
theorem placeOf_eq_ok :
    v.placeOf path = .ok p
      ↔ checkPath path = .ok ()
        ∧ (Path.names path).foldlM v.step
          (if Path.startsAtTop path then .top else .start) = .ok p := by
  unfold placeOf walk
  cases checkPath path with
  | ok u => exact ⟨fun h => ⟨rfl, h⟩, And.right⟩
  | error e => exact ⟨nofun, fun h => nomatch h.1⟩

/-- A path that leads to a place leads there from then on. -/
theorem Within.placeOf (h : v.Within w) (hplace : v.placeOf path = .ok p) :
    w.placeOf path = .ok p := by
  obtain ⟨hcheck, hsteps⟩ := placeOf_eq_ok.1 hplace
  exact placeOf_eq_ok.2 ⟨hcheck, h.steps hsteps⟩

-- ============================================================ looking

/-- What is found under a path that leads to a place is what is there; a path
that ends in a slash finds no file. -/
theorem find_of_placeOf (h : v.placeOf path = .ok p) :
    v.find path
      = match v.entryAt? p with
        | none => .error .noSuchFile
        | some .directory => .ok .directory
        | some (.file contents) =>
          if Path.endsInSlash path then .error .notADirectory
          else .ok (.file contents) := by
  unfold find Volume.enter
  rw [h]
  cases hentry : v.entryAt? p with
  | none =>
      cases Path.endsInSlash path <;>
        simp only [bind, Except.bind, hentry] <;> rfl
  | some x =>
      cases x <;> cases Path.endsInSlash path <;>
        simp only [bind, Except.bind, hentry] <;> rfl

/-- A path is one of a directory if it leads to one. -/
theorem isDirectory_iff :
    v.isDirectory path = true
      ↔ ∃ p, v.placeOf path = .ok p ∧ v.entryAt? p = some .directory := by
  unfold isDirectory
  cases hplace : v.placeOf path with
  | error e =>
      have hfind : v.find path = .error e := by
        unfold find
        rw [hplace]
        rfl
      rw [hfind]
      exact ⟨nofun, fun ⟨_, h, _⟩ => nomatch h⟩
  | ok p =>
      rw [find_of_placeOf hplace]
      cases hentry : v.entryAt? p with
      | none => simp [hentry]
      | some x =>
          cases x with
          | directory => simp [hentry]
          | file contents => cases Path.endsInSlash path <;> simp [hentry]

/-- There is something where there is a directory. -/
theorem holds_of_isDirectory (h : v.isDirectory path) :
    v.holds path = true := by
  obtain ⟨p, hplace, hentry⟩ := isDirectory_iff.1 h
  unfold holds
  rw [find_of_placeOf hplace, hentry]
  rfl

/-- A path of a directory stays one. -/
theorem Within.isDirectory (h : v.Within w) (hpath : v.isDirectory path) :
    w.isDirectory path := by
  obtain ⟨p, hplace, hentry⟩ := isDirectory_iff.1 hpath
  exact isDirectory_iff.2 ⟨p, h.placeOf hplace, h.directory hentry⟩

/-- A path may be asked for if it is not empty, not too long and without
nulls. -/
theorem checkPath_eq_ok :
    checkPath path = .ok ()
      ↔ '\x00' ∉ path.toList ∧ path ≠ "" ∧ path.utf8ByteSize ≤ longestPath := by
  unfold checkPath
  split
  next hnul => simp_all
  next hnul =>
    split
    next hempty => simp_all
    next hempty =>
      split
      next hlong => simpa using fun _ _ => hlong
      next hshort => simp_all

/-- Where a path leads somewhere, the one that it is inside leads to a
directory. -/
theorem isDirectory_of_placeOf {outer : String} (h : Path.Inside path outer)
    (hplace : v.placeOf path = .ok p) : v.isDirectory outer := by
  obtain ⟨inner, rfl, houter, hinner⟩ := h
  obtain ⟨hcheck, hsteps⟩ := placeOf_eq_ok.1 hplace
  obtain ⟨name, names, hnames⟩ := List.exists_cons_of_ne_nil hinner
  have htop : Path.startsAtTop (outer ++ "/" ++ inner)
      = Path.startsAtTop outer := by
    rw [String.append_assoc]
    exact Path.startsAtTop_append houter _
  have houterCheck : checkPath outer = .ok () := by
    obtain ⟨hnul, -, hlong⟩ := checkPath_eq_ok.1 hcheck
    rw [String.utf8ByteSize_append, String.utf8ByteSize_append] at hlong
    refine checkPath_eq_ok.2 ⟨fun hmem => hnul ?_, houter, by omega⟩
    simp [hmem]
  rw [Path.names_append, hnames, htop] at hsteps
  obtain ⟨m, houterSteps, hrest⟩ := foldlM_append_eq_ok.1 hsteps
  obtain ⟨_, hstep, -⟩ := foldlM_cons_eq_ok.1 hrest
  exact isDirectory_iff.2 ⟨m, placeOf_eq_ok.2 ⟨houterCheck, houterSteps⟩,
    enter_eq_ok.1 (enter_of_step hstep)⟩

/-- Where a path leads to a directory, the one that it is inside leads to a
directory too. -/
theorem isDirectory_of_inside {outer : String} (h : Path.Inside path outer)
    (hpath : v.isDirectory path) : v.isDirectory outer := by
  obtain ⟨p, hplace, -⟩ := isDirectory_iff.1 hpath
  exact isDirectory_of_placeOf h hplace

/-- What a path within a directory leads to later on it leads to now, if the
directory is there. -/
theorem Within.placeOf_join (h : v.Within w) (hpath : v.isDirectory path)
    {name : String} (hname : Path.names name = [name])
    (hplace : w.placeOf (Path.join path name) = .ok q) :
    v.placeOf (Path.join path name) = .ok q := by
  obtain ⟨p, hdirectory, hentry⟩ := isDirectory_iff.1 hpath
  obtain ⟨hcheck, hsteps⟩ := placeOf_eq_ok.1 hdirectory
  have hne : path ≠ "" := (checkPath_eq_ok.1 hcheck).2.1
  obtain ⟨hjoined, hwalk⟩ := placeOf_eq_ok.1 hplace
  rw [Path.names_join hne, Path.startsAtTop_join hne, hname] at hwalk
  obtain ⟨m, hm, hlast⟩ := foldlM_append_eq_ok.1 hwalk
  obtain rfl := Except.ok.inj (hm.symm.trans (h.steps hsteps))
  obtain ⟨_, hstep, hend⟩ := foldlM_cons_eq_ok.1 hlast
  refine placeOf_eq_ok.2 ⟨hjoined, ?_⟩
  rw [Path.names_join hne, Path.startsAtTop_join hne, hname]
  refine foldlM_append_eq_ok.2 ⟨m, hsteps, foldlM_cons_eq_ok.2 ⟨_, ?_, hend⟩⟩
  have henter := enter_eq_ok.2 hentry
  unfold Volume.step at hstep ⊢
  rw [h.enter henter] at hstep
  rw [henter]
  exact hstep

-- ============================================================ growing by steps

/-- Whether a volume has grown to another, with the same files locked. -/
structure Grown (v w : Volume) : Prop where
  within : v.Within w
  locks_eq : w.locks = v.locks

theorem Grown.refl (v : Volume) : v.Grown v := ⟨.refl v, rfl⟩

/-- A volume that has grown twice has grown. -/
theorem Grown.trans (h : u.Grown v) (h' : v.Grown w) : u.Grown w :=
  ⟨h.within.trans h'.within, h'.locks_eq.trans h.locks_eq⟩

/-- Something new, or another thing of the same kind. -/
theorem grown_put (h : ∀ y, v.entryAt? p = some y →
    (x = .directory ↔ y = .directory)) : v.Grown (v.put p x) :=
  ⟨within_put h, rfl⟩

/-- A volume grows by what is put where nothing was. -/
theorem grown_put_new (h : v.entryAt? p = none) : v.Grown (v.put p x) :=
  grown_put fun y hy => by rw [h] at hy; cases hy

/-- A volume counts as grown when a file has other contents. -/
theorem grown_put_file {bytes bytes' : Bytes}
    (h : v.entryAt? p = some (.file bytes)) :
    v.Grown (v.put p (.file bytes')) :=
  grown_put fun y hy => by
    rw [h] at hy
    cases hy
    exact iff_of_false nofun nofun

-- ========================================================= directories

/-- Making a directory makes it, finds something in its place, or fails for
the way there. -/
theorem makeDirectory_cases (v : Volume) (path : String) :
    (∃ w, (makeDirectory path).run v = .ok () w ∧ v.Grown w
        ∧ w.isDirectory path)
      ∨ (makeDirectory path).run v = .error .fileExists v
      ∨ ∃ e, (makeDirectory path).run v = .error e v
        ∧ ¬ v.isDirectory path := by
  unfold makeDirectory
  rw [EStateM.run_bind, EStateM.run_get]
  dsimp only
  cases hplace : v.placeOf path with
  | error e =>
      refine .inr (.inr ⟨e, rfl, ?_⟩)
      rw [isDirectory_iff, hplace]
      exact fun ⟨_, h, _⟩ => nomatch h
  | ok p =>
      cases hentry : v.entryAt? p with
      | some x =>
          refine .inr (.inl ?_)
          show (if (v.entryAt? p).isSome = true then _ else _
            : VolumeEdit Unit).run v = _
          rw [hentry]
          rfl
      | none =>
          have hgrown : v.Grown (v.put p .directory) := grown_put_new hentry
          have hgiven := isGiven_eq_false_of_none hentry
          refine .inl ⟨v.put p .directory, ?_, hgrown, isDirectory_iff.2
            ⟨p, hgrown.within.placeOf hplace, entryAt?_put_self v _ hgiven⟩⟩
          show (if (v.entryAt? p).isSome = true then _ else _
            : VolumeEdit Unit).run v = _
          rw [hentry]
          rfl

/-- Making sure of a directory ends with one, or it fails where there is none
and changes nothing. -/
theorem ensureDirectory_ends (v : Volume) (path : String) :
    Edit.Ends (· = v) (ensureDirectory path)
      (fun _ w => v.Grown w ∧ w.isDirectory path)
      (fun w => w = v ∧ ¬ v.isDirectory path) := by
  intro w hw
  subst hw
  have hcases := makeDirectory_cases w path
  unfold ensureDirectory
  dsimp only [EStateM.run] at hcases ⊢
  obtain ⟨w', hrun, hgrown, hdirectory⟩ | hrun | ⟨e, hrun, hnone⟩ := hcases
  · rw [hrun]
    exact ⟨hgrown, hdirectory⟩
  · rw [hrun]
    dsimp only
    by_cases hdirectory : w.isDirectory path = true
    · rw [if_pos hdirectory]
      exact ⟨.refl w, hdirectory⟩
    · rw [if_neg hdirectory]
      exact ⟨rfl, hdirectory⟩
  · rw [hrun]
    cases e with
    | fileExists =>
        dsimp only
        rw [if_neg hnone]
        exact ⟨rfl, hnone⟩
    | _ => exact ⟨rfl, hnone⟩

/-- A directory that is there is not made again. -/
theorem run_ensureDirectory (h : v.isDirectory path) :
    (ensureDirectory path).run v = .ok () v := by
  obtain ⟨p, hplace, hentry⟩ := isDirectory_iff.1 h
  have hthere : (makeDirectory path).run v = .error .fileExists v := by
    unfold makeDirectory
    rw [EStateM.run_bind, EStateM.run_get]
    dsimp only
    rw [hplace]
    show (if (v.entryAt? p).isSome = true then _ else _
      : VolumeEdit Unit).run v = _
    rw [hentry]
    rfl
  unfold ensureDirectory
  dsimp only [EStateM.run] at hthere ⊢
  rw [hthere]
  dsimp only
  rw [if_pos h]

/-- Nor are those around it. -/
theorem run_makeDirectories (h : v.isDirectory path) :
    (makeDirectories path).run v = .ok () v := by
  have hensure := run_ensureDirectory h
  unfold makeDirectories
  split
  · rfl
  · cases Path.around path with
    | nil => exact hensure
    | cons outer others =>
        unfold makeDirectories.make
        dsimp only [EStateM.run] at hensure ⊢
        rw [hensure]

/-- Making a directory and those around it ends with one, or it fails where
there is none afterwards. -/
theorem make_ends {outers : List String}
    (hchain : (path :: outers).IsChain Path.Inside) (v : Volume) :
    Edit.Ends (· = v) (makeDirectories.make path outers)
      (fun _ w => v.Grown w ∧ w.isDirectory path)
      (fun w => v.Grown w ∧ ¬ w.isDirectory path) := by
  induction outers generalizing path v with
  | nil =>
      exact (ensureDirectory_ends v path).weaken (fun _ h => h)
        (fun _ _ h => h) fun w h => ⟨h.1 ▸ .refl v, h.1 ▸ h.2⟩
  | cons outer others ih =>
      obtain ⟨hinside, hothers⟩ := List.isChain_cons_cons.1 hchain
      -- those around it are made, and then it is tried again
      have hretry : Edit.Ends (· = v)
          (do makeDirectories.make outer others; ensureDirectory path)
          (fun _ w => v.Grown w ∧ w.isDirectory path)
          (fun w => v.Grown w ∧ ¬ w.isDirectory path) := by
        refine Edit.Ends.bind (Q := fun _ w => v.Grown w)
          ((ih hothers v).weaken (fun _ h => h) (fun _ _ h => h.1)
            fun w h => ⟨h.1, fun hpath => ?_⟩) fun _ w hgrown => ?_
        · exact h.2 (isDirectory_of_inside hinside hpath)
        · exact ((ensureDirectory_ends w path).weaken (fun _ h => h)
            (fun _ _ h => ⟨hgrown.trans h.1, h.2⟩)
            fun _ h => ⟨h.1 ▸ hgrown, h.1 ▸ h.2⟩) w rfl
      intro w hw
      subst hw
      have hfirst := ensureDirectory_ends w path w rfl
      unfold makeDirectories.make
      dsimp only [EStateM.run] at hfirst ⊢
      cases hrun : ensureDirectory path w with
      | ok u w' =>
          rw [hrun] at hfirst
          exact hfirst
      | error e w' =>
          rw [hrun] at hfirst
          obtain ⟨rfl, hnone⟩ := hfirst
          cases e with
          | noSuchFile => exact hretry w' rfl
          | _ => exact ⟨.refl w', hnone⟩

/-- Making directories only adds some; where it fails the path is none of a
directory. -/
theorem makeDirectories_ends (v : Volume) (path : String) :
    Edit.Ends (· = v) (makeDirectories path) (fun _ w => v.Grown w)
      (fun w => v.Grown w ∧ ¬ w.isDirectory path) := by
  unfold makeDirectories
  split
  · exact .pure fun w hw => hw ▸ .refl v
  · exact (make_ends (Path.isChain_around path) v).weaken (fun _ h => h)
      (fun _ _ h => h.1) fun _ h => h

-- =============================================================== files

/-- Whether there is a file under a path: where it is, and what it holds. -/
structure FileAt (v : Volume) (path : String) (p : Place) (bytes : Bytes) :
    Prop where
  slash : Path.endsInSlash path = false
  place : v.placeOf path = .ok p
  entry : v.entryAt? p = some (.file bytes)

/-- A file that a path leads to is read with its contents. -/
theorem FileAt.read? {bytes : Bytes} (h : v.FileAt path p bytes) :
    v.read? path = some bytes := by
  unfold Volume.read?
  rw [find_of_placeOf h.place, h.entry, h.slash]
  rfl

/-- The file can be written over. -/
theorem FileAt.put {bytes : Bytes} (h : v.FileAt path p bytes)
    (bytes' : Bytes) : (v.put p (.file bytes')).FileAt path p bytes' where
  slash := h.slash
  place := (grown_put_file h.entry).within.placeOf h.place
  entry := entryAt?_put_self v _ (isGiven_eq_false_of_file h.entry)

theorem run_ofExcept_bind {α β : Type} (a : α) (f : α → VolumeEdit β)
    (v : Volume) : (ofExcept (.ok a) >>= f).run v = (f a).run v := rfl

/-- Opening it finds it. -/
theorem FileAt.run_openFile {bytes : Bytes} (h : v.FileAt path p bytes) :
    (openFile path).run v = .ok (p, bytes) v := by
  unfold openFile
  rw [EStateM.run_bind, EStateM.run_get]
  dsimp only
  rw [h.slash, if_neg Bool.false_ne_true, h.place, run_ofExcept_bind, h.entry]
  rfl

/-- Opening it with its directory finds it as well. -/
theorem FileAt.run_openWithin {bytes : Bytes} (h : v.FileAt path p bytes) :
    (openWithin path).run v = .ok (p, bytes) v := by
  have hmake : (makeDirectories (Path.parent path)).run v = .ok () v := by
    have hchain := Path.isChain_around path
    unfold Path.parent
    cases haround : Path.around path with
    | nil => rfl
    | cons outer others =>
        rw [haround] at hchain
        have hinside := (List.isChain_cons_cons.1 hchain).1
        exact run_makeDirectories (isDirectory_of_placeOf hinside h.place)
  unfold openWithin
  rw [EStateM.run_bind, hmake]
  exact h.run_openFile

/-- Where no directory is in the way, opening a file leaves the other files
and the locks as they are. -/
theorem openFile_spares (hslash : Path.endsInSlash path = false)
    (hplace : v.placeOf path = .ok p)
    (hentry : v.entryAt? p ≠ some .directory) :
    ∃ bytes w, (openFile path).run v = .ok (p, bytes) w ∧ v.Grown w
      ∧ ∀ other q contents, v.FileAt other q contents →
        w.FileAt other q contents := by
  cases hx : v.entryAt? p with
  | some x =>
      cases x with
      | directory => exact absurd hx hentry
      | file bytes =>
          have hfile : v.FileAt path p bytes := ⟨hslash, hplace, hx⟩
          exact ⟨bytes, v, hfile.run_openFile, .refl v, fun _ _ _ h => h⟩
  | none =>
      have hgrown : v.Grown (v.put p (.file [])) := grown_put_new hx
      refine ⟨[], v.put p (.file []), ?_, hgrown, fun other q contents h => ?_⟩
      · unfold openFile
        rw [EStateM.run_bind, EStateM.run_get]
        dsimp only
        rw [hslash, if_neg Bool.false_ne_true, hplace, run_ofExcept_bind, hx]
        rfl
      · have hne : q ≠ p := by
          rintro rfl
          cases hx.symm.trans h.entry
        refine ⟨h.slash, hgrown.within.placeOf h.place, ?_⟩
        rw [entryAt?_put, isGiven_eq_false_of_file h.entry,
          if_neg Bool.false_ne_true, if_neg hne]
        exact h.entry

/-- Opening a file finds it with what it holds, or makes an empty one where
nothing is; if it fails it changes nothing. -/
theorem openFile_ends (v : Volume) (path : String) :
    Edit.Ends (· = v) (openFile path)
      (fun opened w => v.Grown w ∧ w.FileAt path opened.1 opened.2
        ∧ opened.2 = (v.read? path).getD [])
      (· = v) := by
  intro w hw
  subst hw
  unfold openFile
  rw [EStateM.run_bind, EStateM.run_get]
  dsimp only
  cases hslash : Path.endsInSlash path with
  | true =>
      -- a path that asks for a directory is refused before anything is made
      rw [if_pos rfl]
      cases w.walk path (Path.names path).dropLast with
      | error e => exact rfl
      | ok around =>
          show Edit.Meets _ _ (EStateM.run (do
            ofExcept (w.enter around)
            throw .isADirectory : VolumeEdit (Place × Bytes)) w)
          cases w.enter around <;> exact rfl
  | false =>
      rw [if_neg Bool.false_ne_true]
      cases hplace : w.placeOf path with
      | error e => exact rfl
      | ok p =>
          rw [run_ofExcept_bind]
          cases hentry : w.entryAt? p with
          | none =>
              -- nothing was there, so an empty file is made
              have hgrown : w.Grown (w.put p (.file [])) :=
                grown_put_new hentry
              have hgiven := isGiven_eq_false_of_none hentry
              have hnone : w.read? path = none := by
                unfold Volume.read?
                rw [find_of_placeOf hplace, hentry]
              rw [hnone]
              exact ⟨hgrown, ⟨hslash, hgrown.within.placeOf hplace,
                entryAt?_put_self w _ hgiven⟩, rfl⟩
          | some x =>
              cases x with
              | directory => exact rfl
              | file contents =>
                  have hfile : w.FileAt path p contents :=
                    ⟨hslash, hplace, hentry⟩
                  rw [hfile.read?]
                  exact ⟨.refl w, hfile, rfl⟩

/-- Opening a file with its directory opens it or fails; either way things
are only added. -/
theorem openWithin_ends (v : Volume) (path : String) :
    Edit.Ends (· = v) (openWithin path)
      (fun opened w => v.Grown w ∧ w.FileAt path opened.1 opened.2)
      (fun w => v.Grown w) := by
  unfold openWithin
  refine Edit.Ends.bind (Q := fun _ w => v.Grown w)
    ((makeDirectories_ends v _).weaken (fun _ h => h) (fun _ _ h => h)
      fun _ h => h.1) fun _ w hgrown => ?_
  exact ((openFile_ends w path).weaken (fun _ h => h)
    (fun _ _ h => ⟨hgrown.trans h.1, h.2.1⟩) fun _ h => h ▸ hgrown) w rfl

end Colonnade.Volume
