import FieldRecording.Proofs.Repair.Naming
import Mathlib.Data.Finset.Card

/-!
# Where stamps stand in a name

A stamp takes fifteen characters, and what may stand at each of its places is fixed, by `fits`:
digits, but for a space and a `T`. Two stamps may share digits, but the space of one is nothing
that another one has room for (`apart_of_stampAt_set`). So a zero for the space of a stamp takes
this stamp from a text and leaves all others as they were, and it makes no new one: `sites_set`.

The check finds fault with a name that has a site of a stamp, and the repair takes one of them
away (`exists_of_renamed`). How often it has to be made is the number of `sites`.
-/

namespace FieldRecording.Datestamp

/-! ## Stamps by place -/

/-- How many characters a stamp takes. -/
def stampLength : Nat := 15

/-- Whether a character may stand at a place of a stamp: a space, a `T`, or a digit of any script.
-/
def fits (place : Nat) (c : Char) : Bool :=
  if place = groupLength then c == ' '
  else if place = groupLength + 2 then c == 'T'
  else isDigitOfAnyScript c

/-- A stamp stands at a site of a text: each of the characters from there `fits` its place. -/
def StampAt (text : List Char) (site : Nat) : Prop :=
  ∀ place < stampLength, ∃ c, text[site + place]? = some c ∧ fits place c = true

/-- The sites of the stamps in a text, as a finite set. -/
def sites (text : List Char) : Finset Nat :=
  (Finset.range text.length).filter fun site => startsWithStamp (text.drop site) = true

variable {text : List Char} {site : Nat}

theorem startsWithGroup_iff :
    startsWithGroup text = true ↔
      ∀ place < groupLength, ∃ c, text[place]? = some c ∧ isDigitOfAnyScript c = true := by
  unfold startsWithGroup
  dsimp only
  rw [Bool.and_eq_true, beq_iff_eq, List.length_take, List.all_eq_true]
  constructor
  · rintro ⟨long, digits⟩ place below
    have inside : place < text.length := by omega
    refine ⟨text[place], List.getElem?_eq_getElem inside, digits _ ?_⟩
    exact List.mem_take_iff_getElem.mpr ⟨place, by omega, rfl⟩
  · intro digits
    have long : groupLength ≤ text.length := by
      obtain ⟨c, there, _⟩ := digits 5 (by decide)
      have inside := (List.getElem?_eq_some_iff.mp there).1
      exact inside
    refine ⟨by omega, fun c member => ?_⟩
    obtain ⟨place, below, rfl⟩ := List.mem_take_iff_getElem.mp member
    obtain ⟨c, there, digit⟩ := digits place (by omega)
    rwa [(List.getElem?_eq_some_iff.mp there).2]

theorem fits_of_ne {place : Nat} (notSpace : place ≠ 6) (notT : place ≠ 8) (c : Char) :
    fits place c = isDigitOfAnyScript c :=
  (if_neg notSpace).trans (if_neg notT)

/-- What a text is from a character on. -/
theorem drop_of_getElem? {index : Nat} {c : Char} (there : text[index]? = some c) :
    text.drop index = c :: text.drop (index + 1) := by
  obtain ⟨inside, rfl⟩ := List.getElem?_eq_some_iff.mp there
  exact List.drop_eq_getElem_cons inside

/-- A text starts with a stamp, by `startsWithStamp`, when one stands at its start. -/
theorem startsWithStamp_iff : startsWithStamp text = true ↔ StampAt text 0 := by
  unfold startsWithStamp StampAt
  simp only [Nat.zero_add]
  rw [Bool.and_eq_true, startsWithGroup_iff]
  constructor
  · rintro ⟨digits, rest⟩ place below
    split at rest
    · rename_i digit more dropped
      obtain ⟨isDigit, digits'⟩ := Bool.and_eq_true_iff.mp rest
      have behind (place : Nat) : text[6 + place]? = (' ' :: digit :: 'T' :: more)[place]? :=
        dropped ▸ List.getElem?_drop.symm
      obtain before | rfl | rfl | rfl | ⟨further, rfl⟩ :
          place < 6 ∨ place = 6 ∨ place = 7 ∨ place = 8 ∨ ∃ further, place = 6 + (further + 3) := by
        by_cases beyond : 9 ≤ place
        · exact .inr (.inr (.inr (.inr ⟨place - 9, by omega⟩)))
        · omega
      · obtain ⟨c, there, isDigit⟩ := digits place before
        exact ⟨c, there, (fits_of_ne (by omega) (by omega) c).trans isDigit⟩
      · exact ⟨' ', behind 0, rfl⟩
      · exact ⟨digit, behind 1, isDigit⟩
      · exact ⟨'T', behind 2, rfl⟩
      · have inGroup : further < 6 := by
          unfold stampLength at below
          omega
        obtain ⟨c, there, isDigit⟩ := startsWithGroup_iff.mp digits' further inGroup
        exact ⟨c, (behind (further + 3)).trans there,
          (fits_of_ne (by omega) (by omega) c).trans isDigit⟩
    · cases rest
  · intro stamp
    refine ⟨fun place below => ?_, ?_⟩
    · have before : place < 6 := below
      obtain ⟨c, there, fit⟩ := stamp place (by unfold stampLength; omega)
      exact ⟨c, there, (fits_of_ne (by omega) (by omega) c).symm.trans fit⟩
    · obtain ⟨space, isSpace, fitsSpace⟩ := stamp 6 (by decide)
      obtain ⟨digit, isDigit, fitsDigit⟩ := stamp 7 (by decide)
      obtain ⟨t, isT, fitsT⟩ := stamp 8 (by decide)
      obtain rfl : space = ' ' := eq_of_beq fitsSpace
      obtain rfl : t = 'T' := eq_of_beq fitsT
      have dropped : text.drop groupLength = ' ' :: digit :: 'T' :: text.drop 9 := by
        rw [groupLength, drop_of_getElem? isSpace, drop_of_getElem? isDigit, drop_of_getElem? isT]
      rw [dropped]
      refine Bool.and_eq_true_iff.mpr ⟨fitsDigit, startsWithGroup_iff.mpr fun place below => ?_⟩
      have before : place < 6 := below
      obtain ⟨c, there, fit⟩ := stamp (9 + place) (by unfold stampLength; omega)
      exact ⟨c, List.getElem?_drop.trans there, (fits_of_ne (by omega) (by omega) c).symm.trans fit⟩

theorem stampAt_drop (text : List Char) (site more : Nat) :
    StampAt (text.drop site) more ↔ StampAt text (site + more) := by
  unfold StampAt
  simp only [List.getElem?_drop, Nat.add_assoc]

theorem mem_sites : site ∈ sites text ↔ StampAt text site := by
  rw [sites, Finset.mem_filter, Finset.mem_range, startsWithStamp_iff, stampAt_drop, Nat.add_zero,
    and_iff_right_iff_imp]
  intro stamp
  obtain ⟨c, there, _⟩ := stamp 0 (by decide)
  exact (List.getElem?_eq_some_iff.mp there).1

/-! ## What separates stamps -/

/-- Behind a character that is in no stamp the stamps of a text start anew. -/
theorem stampAt_append_cons {front back : List Char} {separator : Char}
    (foreign : ∀ place < stampLength, fits place separator = false) :
    StampAt (front ++ separator :: back) site ↔
      StampAt front site ∨ ∃ behind, site = front.length + 1 + behind ∧ StampAt back behind := by
  constructor
  · intro stamp
    by_cases before : site + stampLength ≤ front.length
    · left
      intro place below
      obtain ⟨c, there, fit⟩ := stamp place below
      rw [List.getElem?_append_left (by omega)] at there
      exact ⟨c, there, fit⟩
    by_cases inside : site ≤ front.length
    · obtain ⟨c, there, fit⟩ := stamp (front.length - site) (by omega)
      rw [Nat.add_sub_cancel' inside, List.getElem?_append_right (Nat.le_refl _),
        Nat.sub_self] at there
      obtain rfl := Option.some.inj there
      rw [foreign _ (by omega)] at fit
      cases fit
    · right
      refine ⟨site - (front.length + 1), by omega, fun place below => ?_⟩
      obtain ⟨c, there, fit⟩ := stamp place below
      have index : site + place - front.length = site - (front.length + 1) + place + 1 := by omega
      rw [List.getElem?_append_right (by omega), index, List.getElem?_cons_succ] at there
      exact ⟨c, there, fit⟩
  · rintro (stamp | ⟨behind, rfl, stamp⟩)
    · intro place below
      obtain ⟨c, there, fit⟩ := stamp place below
      have inside := (List.getElem?_eq_some_iff.mp there).1
      exact ⟨c, (List.getElem?_append_left inside).trans there, fit⟩
    · intro place below
      obtain ⟨c, there, fit⟩ := stamp place below
      have index : front.length + 1 + behind + place - front.length = behind + place + 1 := by omega
      rw [List.getElem?_append_right (by omega), index, List.getElem?_cons_succ]
      exact ⟨c, there, fit⟩

theorem not_stampAt_nil : ¬ StampAt [] site := by
  intro stamp
  obtain ⟨c, there, _⟩ := stamp 0 (by decide)
  cases there

theorem stampAt_cons_succ {c : Char} : StampAt (c :: text) (site + 1) ↔ StampAt text site := by
  have later := stampAt_drop (c :: text) 1 site
  rw [Nat.add_comm 1 site] at later
  exact later.symm

theorem newline_is_foreign : ∀ place < stampLength, fits place '\n' = false := by decide

/-- The stamps of a text are those of its lines, which `joinWith` puts together. -/
theorem exists_stampAt_joinWith (lines : List (List Char)) :
    (∃ site, StampAt (joinWith '\n' lines) site) ↔ ∃ line ∈ lines, ∃ site, StampAt line site := by
  induction lines with
  | nil =>
    constructor
    · rintro ⟨site, stamp⟩
      exact absurd stamp not_stampAt_nil
    · rintro ⟨line, member, _⟩
      cases member
  | cons line lines ih =>
    cases lines with
    | nil => simp [joinWith]
    | cons next lines =>
      rw [joinWith_cons_cons]
      constructor
      · rintro ⟨site, stamp⟩
        rcases (stampAt_append_cons newline_is_foreign).mp stamp with stamp | ⟨behind, _, stamp⟩
        · exact ⟨line, List.mem_cons_self, site, stamp⟩
        · obtain ⟨other, member, found⟩ := ih.mp ⟨behind, stamp⟩
          exact ⟨other, List.mem_cons_of_mem line member, found⟩
      · rintro ⟨other, member, site, stamp⟩
        rcases List.mem_cons.mp member with rfl | member
        · exact ⟨site, (stampAt_append_cons newline_is_foreign).mpr (.inl stamp)⟩
        · obtain ⟨behind, stamp⟩ := ih.mpr ⟨other, member, site, stamp⟩
          exact ⟨_, (stampAt_append_cons newline_is_foreign).mpr (.inr ⟨behind, rfl, stamp⟩)⟩

/-! ## Mending -/

theorem mendStart_eq_set (stamp : StampAt text 0) : mendStart text = text.set 6 '0' := by
  obtain ⟨c, there, _⟩ := stamp 6 (by decide)
  have inside : 0 + 6 < text.length := (List.getElem?_eq_some_iff.mp there).1
  rw [List.set_eq_take_append_cons_drop, if_pos (by omega)]
  rfl

/-- A line that holds a stamp is mended by `mendLast`, and no other. -/
theorem mendLast_eq_none_iff {line : List Char} :
    mendLast line = none ↔ ∀ site, ¬ StampAt line site := by
  induction line with
  | nil => exact ⟨fun _ _ => not_stampAt_nil, fun _ => rfl⟩
  | cons c line ih =>
    rw [mendLast]
    constructor
    · intro unmended site stamp
      split at unmended
      · cases unmended
      · rename_i nothing
        split at unmended
        · cases unmended
        · rename_i other
          cases site with
          | zero => exact other (startsWithStamp_iff.mpr stamp)
          | succ site => exact ih.mp nothing site (stampAt_cons_succ.mp stamp)
    · intro unstamped
      rw [ih.mpr fun site stamp => unstamped (site + 1) (stampAt_cons_succ.mpr stamp)]
      exact if_neg fun starts => unstamped 0 (startsWithStamp_iff.mp starts)

/-- It has a zero for the space of one of its stamps. -/
theorem exists_site_of_mendLast {line mended : List Char} (mends : mendLast line = some mended) :
    ∃ site, StampAt line site ∧ mended = line.set (site + 6) '0' := by
  induction line generalizing mended with
  | nil => cases mends
  | cons c line ih =>
    rw [mendLast] at mends
    split at mends
    · rename_i rest later
      obtain ⟨site, stamp, rfl⟩ := ih later
      exact ⟨site + 1, stampAt_cons_succ.mpr stamp, (Option.some.inj mends).symm⟩
    · split at mends
      · rename_i starts
        have stamp := startsWithStamp_iff.mp starts
        exact ⟨0, stamp, (Option.some.inj mends).symm.trans (mendStart_eq_set stamp)⟩
      · cases mends

theorem mendLines_eq_none_iff {lines : List (List Char)} :
    mendLines lines = none ↔ ∀ line ∈ lines, mendLast line = none := by
  induction lines with
  | nil => simp [mendLines]
  | cons line lines ih =>
    rw [mendLines, List.forall_mem_cons]
    split
    · rename_i mended mends
      simp [mends]
    · rename_i unmended
      rw [Option.map_eq_none_iff, ih, iff_true_intro unmended, true_and]

/-- A name without stamps is left alone by `mend?`, and no other. -/
theorem mend?_eq_none_iff {name : String} : mend? name = none ↔ sites name.toList = ∅ := by
  have lines := exists_stampAt_joinWith (splitAtEach '\n' name.toList)
  rw [joinWith_splitAtEach] at lines
  rw [mend?, Option.map_eq_none_iff, mendLines_eq_none_iff, Finset.eq_empty_iff_forall_notMem]
  simp only [mem_sites, mendLast_eq_none_iff]
  constructor
  · intro unstamped site stamp
    obtain ⟨line, member, site, stamp⟩ := lines.mp ⟨site, stamp⟩
    exact unstamped line member site stamp
  · intro unstamped line member site stamp
    obtain ⟨site, stamp⟩ := lines.mpr ⟨line, member, site, stamp⟩
    exact unstamped site stamp

/-- A name that is mended has a zero for the space of one of its stamps. -/
theorem exists_site_of_mend? {name mended : String} (mends : mend? name = some mended) :
    ∃ site ∈ sites name.toList, mended.toList = name.toList.set (site + 6) '0' := by
  unfold mend? at mends
  obtain ⟨lines, changes, rfl⟩ := Option.map_eq_some_iff.mp mends
  obtain ⟨before, line, after, changed, isLines, rfl, isChanged⟩ := exists_of_mendLines changes
  obtain ⟨site, stamp, rfl⟩ := exists_site_of_mendLast isChanged
  obtain ⟨first, last, joined⟩ := exists_joinWith_append_cons '\n' before after
  have isName : name.toList = first ++ line ++ last := by
    rw [← joinWith_splitAtEach '\n' name.toList, isLines, joined]
  have inside (place : Nat) (below : place < stampLength) : site + place < line.length := by
    obtain ⟨c, there, _⟩ := stamp place below
    exact (List.getElem?_eq_some_iff.mp there).1
  refine ⟨first.length + site, mem_sites.mpr fun place below => ?_, ?_⟩
  · obtain ⟨c, there, fit⟩ := stamp place below
    refine ⟨c, ?_, fit⟩
    rw [isName, List.append_assoc, List.getElem?_append_right (by omega), Nat.add_assoc,
      Nat.add_sub_cancel_left, List.getElem?_append_left (inside place below), there]
  · have here := inside 6 (by decide)
    rw [String.toList_ofList, joined, isName, List.append_assoc, List.append_assoc,
      Nat.add_assoc, List.set_append_right _ _ (by omega), Nat.add_sub_cancel_left,
      List.set_append_left _ _ here]

/-! ## What mending leaves -/

theorem fits_space {place : Nat} : fits place ' ' = true ↔ place = 6 := by
  constructor
  · intro fit
    by_contra notSpace
    by_cases isT : place = 8
    · subst isT
      exact absurd fit (by decide)
    · rw [fits_of_ne notSpace isT] at fit
      exact absurd fit (by decide)
  · rintro rfl
    rfl

theorem fits_t {place : Nat} (fit : fits place 'T' = true) : place = 8 := by
  by_contra notT
  by_cases isSpace : place = 6
  · subst isSpace
    exact absurd fit (by decide)
  · rw [fits_of_ne isSpace notT] at fit
    exact absurd fit (by decide)

/-- A zero for the space of a stamp is in no stamp: another one would have room for the space or
for the `T` of this one, or this one for that of the other. -/
theorem apart_of_stampAt_set {other place : Nat} (stamp : StampAt text site)
    (mended : StampAt (text.set (site + 6) '0') other) (below : place < stampLength) :
    other + place ≠ site + 6 := by
  intro same
  have below' : place < 15 := below
  -- a character at a place of both stamps is one for which both have room
  have shared {here there : Nat} (below : here < stampLength) (below' : there < stampLength)
      (same : other + here = site + there) (ne : there ≠ 6) :
      ∃ c, fits here c = true ∧ fits there c = true := by
    obtain ⟨c, isChar, fit⟩ := mended here below
    obtain ⟨c', isChar', fit'⟩ := stamp there below'
    rw [same, List.getElem?_set_ne (by omega), isChar'] at isChar
    obtain rfl := Option.some.inj isChar
    exact ⟨_, fit, fit'⟩
  have isDigit : fits place '0' = true := by
    obtain ⟨space, isSpace, _⟩ := stamp 6 (by decide)
    obtain ⟨c, isChar, fit⟩ := mended place below
    rw [same, List.getElem?_set_self (List.getElem?_eq_some_iff.mp isSpace).1] at isChar
    obtain rfl := Option.some.inj isChar
    exact fit
  have notSpace : place ≠ 6 := by
    rintro rfl
    exact absurd isDigit (by decide)
  have notT : place ≠ 8 := by
    rintro rfl
    exact absurd isDigit (by decide)
  by_cases before : place < 8
  · -- the space of the other stamp would be one of the digits, or the `T`
    obtain ⟨c, isSpace, fit⟩ := @shared 6 (12 - place) (by decide)
      (by unfold stampLength; omega) (by omega) (by omega)
    obtain rfl : c = ' ' := eq_of_beq isSpace
    have isSix := fits_space.mp fit
    omega
  · -- and so would its `T`
    obtain ⟨c, isT, fit⟩ := @shared 8 (14 - place) (by decide)
      (by unfold stampLength; omega) (by omega) (by omega)
    obtain rfl : c = 'T' := eq_of_beq isT
    have isEight := fits_t fit
    omega

/-- A zero for the space of a stamp takes this stamp from a text, and makes no other: one of the
`sites` goes. -/
theorem sites_set (isSite : site ∈ sites text) :
    sites (text.set (site + 6) '0') = (sites text).erase site := by
  have stamp := mem_sites.mp isSite
  obtain ⟨space, isSpace, fitsSpace⟩ := stamp 6 (by decide)
  obtain rfl : space = ' ' := eq_of_beq fitsSpace
  have kept (index : Nat) (ne : index ≠ site + 6) :
      (text.set (site + 6) '0')[index]? = text[index]? := List.getElem?_set_ne ne.symm
  ext other
  rw [Finset.mem_erase, mem_sites, mem_sites]
  constructor
  · intro mended
    have apart {place : Nat} (below : place < stampLength) : other + place ≠ site + 6 :=
      apart_of_stampAt_set stamp mended below
    refine ⟨fun same => apart (by decide : 6 < stampLength) (by omega), fun place below => ?_⟩
    obtain ⟨c, there, fit⟩ := mended place below
    exact ⟨c, (kept _ (apart below)).symm.trans there, fit⟩
  · rintro ⟨ne, stampThere⟩ place below
    obtain ⟨c, there, fit⟩ := stampThere place below
    have apart : other + place ≠ site + 6 := by
      intro same
      rw [same, isSpace] at there
      obtain rfl := Option.some.inj there
      have isSix := fits_space.mp fit
      omega
    exact ⟨c, (kept _ apart).trans there, fit⟩

/-! ## Convergence -/

/-- A name is found fault with by `check` if a stamp stands in it. -/
theorem isAffected_check_iff {path : Path} :
    (check path).isAffected = true ↔ 0 < (sites path.baseName.toList).card := by
  rw [Finset.card_pos, Finset.nonempty_iff_ne_empty, Ne, ← mend?_eq_none_iff, check]
  cases mend? path.baseName with
  | none => simp [CheckResult.isAffected]
  | some name => simp [CheckResult.isAffected]

/-- The path of a file once its name has been repaired: that with the name that `mend?` proposes. -/
def renamed (path : Path) : Path :=
  match mend? path.baseName with
  | some name => path.withFileName name
  | none => path

/-- A repair takes one stamp from a name. -/
theorem exists_of_renamed {path : Path} {name : String} (mends : mend? path.baseName = some name) :
    ∃ site ∈ sites path.baseName.toList,
      name.toList = path.baseName.toList.set (site + 6) '0' ∧
      (path.withFileName name).baseName = name ∧
      sites name.toList = (sites path.baseName.toList).erase site := by
  obtain ⟨site, isSite, isMended⟩ := exists_site_of_mend? mends
  have seen : (check path).cause = some (.newName name) := by
    unfold check
    rw [mends]
    rfl
  obtain ⟨plain, member⟩ := of_cause seen
  exact ⟨site, isSite, isMended, path.baseName_withFileName_of_plain plain member (by decide),
    isMended ▸ sites_set isSite⟩

theorem card_sites_renamed (path : Path) :
    (sites (renamed path).baseName.toList).card = (sites path.baseName.toList).card - 1 := by
  unfold renamed
  split
  · rename_i name mends
    obtain ⟨site, isSite, _, isName, rest⟩ := exists_of_renamed mends
    rw [isName, rest, Finset.card_erase_of_mem isSite]
  · rename_i sound
    rw [mend?_eq_none_iff.mp sound]
    rfl

/-- Repairs of a name converge: fault is found with it as long as there were fewer repairs than
stamps. -/
theorem isAffected_iterate_renamed_iff (rounds : Nat) (path : Path) :
    (check (renamed^[rounds] path)).isAffected = true ↔
      rounds < (sites path.baseName.toList).card := by
  induction rounds generalizing path with
  | zero => exact isAffected_check_iff
  | succ rounds ih =>
    rw [Function.iterate_succ_apply, ih, card_sites_renamed]
    omega

/-- Where fault is found with a name, the proposed one has a zero for a space of it, and as many
characters. Once the file is `renamed` no fault is found exactly if its name had one stamp, by how
many `sites` it has. -/
theorem renaming_mends_one_stamp {path : Path} (affected : (check path).isAffected = true) :
    ∃ name index, (check path).evidence = some (.newName name) ∧
      path.baseName.toList[index]? = some ' ' ∧
      name.toList = path.baseName.toList.set index '0' ∧ name.length = path.baseName.length ∧
      (path.withFileName name).baseName = name ∧
      ((check (path.withFileName name)).isAffected = false ↔
        (sites path.baseName.toList).card = 1) := by
  have stamped := isAffected_check_iff.mp affected
  cases mends : mend? path.baseName with
  | none =>
    rw [mend?_eq_none_iff.mp mends] at stamped
    exact absurd stamped (Nat.lt_irrefl 0)
  | some name =>
    obtain ⟨site, isSite, isMended, isName, rest⟩ := exists_of_renamed mends
    obtain ⟨space, isSpace, fit⟩ := mem_sites.mp isSite 6 (by decide)
    obtain rfl : space = ' ' := eq_of_beq fit
    refine ⟨name, site + 6, ?_, isSpace, isMended, ?_, isName, ?_⟩
    · rw [check, mends]
    · rw [← String.length_toList, isMended, List.length_set, String.length_toList]
    · rw [← Bool.not_eq_true, isAffected_check_iff, isName, rest, Finset.card_erase_of_mem isSite]
      omega

/-- Of two stamps one is left. -/
theorem renaming_mends_one_stamp_of_two :
    (check "202004 6T020000Z_202004 6T020000Z.flac").isAffected = true ∧
      ∃ name, (check "202004 6T020000Z_202004 6T020000Z.flac").evidence = some (.newName name) ∧
        (check (Path.withFileName "202004 6T020000Z_202004 6T020000Z.flac" name)).isAffected =
          true := by
  have affected : (check "202004 6T020000Z_202004 6T020000Z.flac").isAffected = true := by
    decide +kernel
  obtain ⟨name, _, proposed, _, _, _, _, converges⟩ := renaming_mends_one_stamp affected
  refine ⟨affected, name, proposed, Bool.eq_true_of_not_eq_false fun sound => ?_⟩
  have twice :
      (sites (Path.baseName "202004 6T020000Z_202004 6T020000Z.flac").toList).card = 2 := by
    decide +kernel
  exact absurd (converges.mp sound) (by omega)

end FieldRecording.Datestamp
