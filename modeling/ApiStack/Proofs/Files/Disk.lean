import ApiStack.Main
import ApiStack.Proofs.Failure

namespace ApiStack.Disk

open CommandLine (placeFrom)

variable {disk disk' : Disk} {path : Path} {start place next : Place} {segments : List String}
  {text : String}

section Walking

/-- The place behind one segment. -/
def follow (place : Place) (segment : String) : Place :=
  if segment = "" || segment = "." then place
  else if segment = ".." then place.dropLast
  else place ++ [segment]

theorem step_eq_ok {segment : String} (h : disk.step place segment = .ok next) :
    disk.node? place = some .directory ∧ next = follow place segment := by
  unfold step at h
  unfold follow
  split at h
  · cases h
  · cases h
  · next hd =>
    refine ⟨hd, ?_⟩
    split_ifs at h ⊢ <;> cases h <;> rfl

theorem step_of_directory {segment : String} (h : disk.step place segment = .ok next)
    (hd : disk'.node? place = some .directory) : disk'.step place segment = .ok next := by
  rw [← h, step, step, hd, (step_eq_ok h).1]

theorem walk_eq_ok (h : disk.walk start segments = .ok place) :
    place = segments.foldl follow start := by
  induction segments generalizing start with
  | nil =>
    cases h
    rfl
  | cons segment rest ih =>
    obtain ⟨next, hs, h⟩ := bind_eq_ok_iff.1 h
    rw [ih h, (step_eq_ok hs).2, List.foldl_cons]

theorem walk_of_directories
    (hd : ∀ p, disk.node? p = some .directory → disk'.node? p = some .directory)
    (h : disk.walk start segments = .ok place) : disk'.walk start segments = .ok place := by
  induction segments generalizing start with
  | nil => exact h
  | cons segment rest ih =>
    obtain ⟨next, hs, h⟩ := bind_eq_ok_iff.1 h
    exact bind_eq_ok_iff.2 ⟨next, step_of_directory hs (hd _ (step_eq_ok hs).1), ih h⟩

theorem walk_append {segment : String} (h : disk.walk start segments = .ok place) :
    disk.walk start (segments ++ [segment]) = disk.step place segment := by
  induction segments generalizing start with
  | nil =>
    cases h
    exact bind_pure (disk.step place segment)
  | cons head rest ih =>
    obtain ⟨next, hs, h⟩ := bind_eq_ok_iff.1 h
    rw [List.cons_append, walk, hs]
    exact ih h

theorem origin_eq_ok (h : disk.origin path = .ok (start, segments)) :
    start = (if path.isAbsolute then [] else disk.base) ∧ segments = path.segments := by
  unfold origin at h
  split_ifs at h <;> cases h <;> exact ⟨by simp_all, rfl⟩

theorem origin_of_base (h : disk'.base = disk.base) : disk'.origin path = disk.origin path := by
  rw [origin, origin, h]

theorem foldl_follow_of_origin (h : disk.origin path = .ok (start, segments)) :
    segments.foldl follow start = placeFrom disk.base path := by
  obtain ⟨rfl, rfl⟩ := origin_eq_ok h
  rfl

theorem read_eq_ok_iff : disk.read path = .ok text ↔
    ∃ start segments place, disk.origin path = .ok (start, segments) ∧
      disk.walk start segments = .ok place ∧ disk.node? place = some (.file (some text)) := by
  unfold read
  constructor
  · intro h
    obtain ⟨⟨place, node⟩, hf, h⟩ := bind_eq_ok_iff.1 h
    obtain ⟨⟨start, segments⟩, ho, hf⟩ := bind_eq_ok_iff.1 hf
    obtain ⟨place', hw, hf⟩ := bind_eq_ok_iff.1 hf
    split at hf
    · next hn =>
      cases hf
      simp only at h
      split at h
      · cases h
      · cases h
      · cases h
        exact ⟨start, segments, place, ho, hw, hn⟩
    · cases hf
  · rintro ⟨start, segments, place, ho, hw, hn⟩
    have hf : disk.find path = .ok (place, .file (some text)) := by
      simp only [find, ho, hw, hn, bind, Except.bind]
      rfl
    rw [hf]
    rfl

theorem node?_of_read (h : disk.read path = .ok text) :
    disk.node? (placeFrom disk.base path) = some (.file (some text)) := by
  obtain ⟨start, segments, place, ho, hw, hn⟩ := read_eq_ok_iff.1 h
  rwa [← foldl_follow_of_origin ho, ← walk_eq_ok hw]

end Walking

section Keeping

/-- A change of a tree keeps the directories, and what a place holds as far as it is a file. -/
structure Keeps (place : Place) (disk disk' : Disk) : Prop where
  base : disk'.base = disk.base
  directories : ∀ p, disk.node? p = some .directory → disk'.node? p = some .directory
  file : ∀ content, disk'.node? place = some (.file content) ↔ disk.node? place = some (.file content)

theorem Keeps.refl (place : Place) (disk : Disk) : Keeps place disk disk :=
  ⟨rfl, fun _ h => h, fun _ => .rfl⟩

theorem Keeps.trans {disk'' : Disk} (h : Keeps place disk disk') (h' : Keeps place disk' disk'') :
    Keeps place disk disk'' :=
  ⟨h'.base.trans h.base, fun p hp => h'.directories p (h.directories p hp),
    fun content => (h'.file content).trans (h.file content)⟩

theorem Keeps.read_eq_ok (h : Keeps (placeFrom disk.base path) disk disk')
    (hr : disk.read path = .ok text) : disk'.read path = .ok text := by
  have hnode := node?_of_read hr
  obtain ⟨start, segments, place, ho, hw, -⟩ := read_eq_ok_iff.1 hr
  refine read_eq_ok_iff.2 ⟨start, segments, place, (origin_of_base h.base).trans ho,
    walk_of_directories h.directories hw, ?_⟩
  rw [walk_eq_ok hw, foldl_follow_of_origin ho]
  exact (h.file _).2 hnode

/-- No file stands where a path leads to if every step before it is a directory. -/
def NoFile (disk : Disk) (path : Path) : Prop :=
  ∀ content, disk.node? (placeFrom disk.base path) ≠ some (.file content)

theorem NoFile.read_ne_ok (h : disk.NoFile path) : disk.read path ≠ .ok text :=
  fun hr => h _ (node?_of_read hr)

theorem Keeps.noFile (h : Keeps (placeFrom disk.base path) disk disk') (hn : disk.NoFile path) :
    disk'.NoFile path := by
  intro content hc
  rw [h.base] at hc
  exact hn content ((h.file content).1 hc)

theorem lookup_replaced (place : Place) (node : Node) (nodes : List (Place × Node)) (p : Place) :
    (nodes.map fun e => if e.1 = place then (place, node) else e).lookup p =
      if p = place then (nodes.lookup p).map fun _ => node else nodes.lookup p := by
  induction nodes with
  | nil => simp
  | cons e rest ih =>
    obtain ⟨q, n⟩ := e
    have hkey : (if q = place then (place, node) else (q, n)).1 = q := by split_ifs with h <;> simp [h]
    by_cases hp : p = q
    · subst hp
      by_cases hq : p = place
      · simp [hq]
      · simp [hq]
    · rw [List.map_cons, List.lookup_cons, List.lookup_cons, hkey, beq_false_of_ne hp]
      exact ih

theorem lookup_setNode (disk : Disk) (place : Place) (node : Node) (p : Place) :
    (disk.setNode place node).nodes.lookup p =
      if p = place then some node else disk.nodes.lookup p := by
  have hany : disk.nodes.any (·.1 = place) = (disk.nodes.lookup place).isSome := by
    rw [Bool.eq_iff_iff, List.any_eq_true, List.lookup_isSome_iff]
    simp only [decide_eq_true_eq, beq_iff_eq, eq_comm (a := place)]
  unfold setNode
  rw [hany]
  cases hl : disk.nodes.lookup place with
  | some n =>
    simp only [Option.isSome_some, if_true]
    rw [lookup_replaced]
    by_cases hp : p = place
    · rw [if_pos hp, if_pos hp, hp, hl]
      rfl
    · rw [if_neg hp, if_neg hp]
  | none =>
    simp only [Option.isSome_none, Bool.false_eq_true, if_false]
    rw [List.lookup_append, List.lookup_cons]
    by_cases hp : p = place
    · rw [if_pos hp, hp, hl, beq_self_eq_true]
      rfl
    · rw [if_neg hp, beq_false_of_ne hp]
      exact Option.or_none

theorem base_setNode (disk : Disk) (place : Place) (node : Node) :
    (disk.setNode place node).base = disk.base := by
  unfold setNode
  split <;> rfl

theorem node?_setNode_of_ne {p : Place} {node : Node} (h : p ≠ place) :
    (disk.setNode place node).node? p = disk.node? p := by
  rw [node?, node?, base_setNode, lookup_setNode, if_neg h]

theorem node?_setNode_self {node : Node} (h : disk.node? place ≠ some .directory) :
    (disk.setNode place node).node? place = some node := by
  have hp : ¬place.isPrefixOf disk.base = true := fun hp => h (if_pos hp)
  rw [node?, base_setNode, if_neg hp, lookup_setNode, if_pos rfl]

/-- A new directory leaves every file as it is. -/
theorem keeps_makeDirectory (place : Place) (h : disk.makeDirectory path = .ok disk') :
    Keeps place disk disk' := by
  obtain ⟨⟨start, segments⟩, -, h⟩ := bind_eq_ok_iff.1 h
  obtain ⟨p, -, h⟩ := bind_eq_ok_iff.1 h
  split at h
  · cases h
  · next hp =>
    cases h
    have hnone : disk.node? p = none := by simpa using hp
    have hnode : (disk.setNode p .directory).node? p = some .directory :=
      node?_setNode_self (by rw [hnone]; exact nofun)
    refine ⟨base_setNode .., fun q hq => ?_, fun content => ?_⟩
    · by_cases hqp : q = p
      · rw [hqp, hnode]
      · rwa [node?_setNode_of_ne hqp]
    · by_cases hqp : place = p
      · rw [hqp, hnode, hnone]
        simp
      · rw [node?_setNode_of_ne hqp]

theorem keeps_settleDirectory (place : Place) (disk : Disk) (path : Path) :
    Keeps place disk (disk.settleDirectory path).2 := by
  unfold settleDirectory
  split
  · next h => exact keeps_makeDirectory place h
  · exact .refl place disk

theorem keeps_makeDirectories (place : Place) (fuel : Nat) (disk : Disk) (path : Path) :
    Keeps place disk (disk.makeDirectories fuel path).2 := by
  induction fuel generalizing disk path with
  | zero => exact .refl place disk
  | succ fuel ih =>
    rw [makeDirectories]
    split_ifs
    · exact .refl place disk
    · split
      · exact .refl place disk
      · next above _ _ =>
        have habove := ih disk above
        split
        · next he =>
          rwa [he] at habove
        · next he =>
          rw [he] at habove
          exact habove.trans (keeps_settleDirectory place _ path)
      · exact keeps_settleDirectory place disk path

theorem keeps_ensureDirectory (place : Place) (disk : Disk) (path : Path) :
    Keeps place disk (disk.ensureDirectory path).2 :=
  keeps_makeDirectories place _ disk path

end Keeping

section Writing

theorem placeFor_eq_ok {onDot : FileFault}
    (h : disk.placeFor onDot segments start = .ok place) :
    ∃ above last p, segments = above ++ [last] ∧ disk.walk start above = .ok p ∧
      disk.node? p = some .directory ∧ last ≠ "." ∧ last ≠ ".." ∧ last.utf8ByteSize ≤ 255 ∧
      place = p ++ [last] := by
  unfold placeFor at h
  split at h
  · cases h
  · next last hl =>
    obtain ⟨p, hw, h⟩ := bind_eq_ok_iff.1 h
    split at h
    · cases h
    · cases h
    · next hd =>
      split_ifs at h with hdot hlong
      cases h
      rw [Bool.or_eq_true, decide_eq_true_eq, decide_eq_true_eq, not_or] at hdot
      exact ⟨_, last, p, (List.dropLast_append_getLast? last hl).symm, hw, hd, hdot.1, hdot.2,
        Nat.le_of_not_lt hlong, rfl⟩

theorem fileAt_eq_ok (h : disk.fileAt path = .ok place) :
    disk.node? place ≠ some .directory ∧
    ∃ start segments, disk.origin path = .ok (start, segments) ∧
      disk.walk start segments = .ok place := by
  obtain ⟨⟨start, segments⟩, ho, h⟩ := bind_eq_ok_iff.1 h
  simp only at h
  split_ifs at h with hlast
  · obtain ⟨_, -, h⟩ := bind_eq_ok_iff.1 h
    cases h
  · obtain ⟨p, hp, h⟩ := bind_eq_ok_iff.1 h
    split_ifs at h with hd
    cases h
    obtain ⟨above, last, q, rfl, hw, hdir, hdot, hdots, hsize, rfl⟩ := placeFor_eq_ok hp
    have hempty : last ≠ "" := by simpa using hlast
    refine ⟨hd, start, _, ho, ?_⟩
    rw [walk_append hw, step, hdir]
    simp [hempty, hdot, hdots, Nat.not_lt.2 hsize]

theorem write_eq_ok (h : disk.write path text = .ok disk') :
    ∃ place, disk.fileAt path = .ok place ∧ disk' = disk.setNode place (.file (some text)) := by
  obtain ⟨place, hf, h⟩ := bind_eq_ok_iff.1 h
  cases h
  exact ⟨place, hf, rfl⟩

theorem base_of_write (h : disk.write path text = .ok disk') : disk'.base = disk.base := by
  obtain ⟨place, -, rfl⟩ := write_eq_ok h
  exact base_setNode ..

/-- What is written at a path is read at every path to the same file. -/
theorem read_of_write {path' : Path} (h : disk.write path text = .ok disk')
    (hsame : disk.fileAt path' = disk.fileAt path) : disk'.read path' = .ok text := by
  obtain ⟨place, hf, rfl⟩ := write_eq_ok h
  obtain ⟨hd, start, segments, ho, hw⟩ := fileAt_eq_ok (hsame.trans hf)
  have hdirectories (p : Place) (hp : disk.node? p = some .directory) :
      (disk.setNode place (.file (some text))).node? p = some .directory := by
    rwa [node?_setNode_of_ne]
    rintro rfl
    exact hd hp
  exact read_eq_ok_iff.2 ⟨start, segments, place, (origin_of_base (base_setNode ..)).trans ho,
    walk_of_directories hdirectories hw, node?_setNode_self hd⟩

/-- What is written at another place leaves a file as it is. -/
theorem keeps_write (h : disk.write path text = .ok disk') (hne : placeFrom disk.base path ≠ place) :
    Keeps place disk disk' := by
  obtain ⟨p, hf, rfl⟩ := write_eq_ok h
  obtain ⟨hd, start, segments, ho, hw⟩ := fileAt_eq_ok hf
  rw [← foldl_follow_of_origin ho, ← walk_eq_ok hw] at hne
  refine ⟨base_setNode .., fun q hq => ?_, fun content => ?_⟩
  · rwa [node?_setNode_of_ne]
    rintro rfl
    exact hd hq
  · rw [node?_setNode_of_ne hne.symm]

end Writing

end ApiStack.Disk
