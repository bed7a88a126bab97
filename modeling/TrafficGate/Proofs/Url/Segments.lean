import TrafficGate.Url.Path
import TrafficGate.Proofs.Url.Percent
import Mathlib.Data.List.Forall2
/-!
# Segments added to paths

What a segment adds to a path of a URL under `http` or `https` is its
`Step`: nothing, one encoded segment, or the place of the segment before it
(`push_eq`). Segments that are written whole and are no dot segments each
add their encoding (`foldl_push`), and that keeps what they stand for and
none of the characters that have a meaning in a URL (`Encodes`).

Where no segment holds a slash, the text of a path determines its segments
(`slashed_injective`), and the text of a URL with a host determines that of
its path (`slashed_of_text`). So URLs are told apart by their segments.
-/

namespace TrafficGate

namespace UrlPath

variable {scheme s : String} {segs : List String}

/-! ## One segment -/

/-- A segment that is none of the two dot segments. Those add nothing. -/
def adds (s : String) : Bool := s ≠ "." && s ≠ ".."

/-- A segment that is written with all its characters. -/
def Kept (s : String) : Prop := ∀ c ∈ s.toList, isDropped c = false

instance (s : String) : Decidable (Kept s) := List.decidableBAll _ s.toList

/-- The characters that a segment is written with. -/
def trimmed (s : String) : List Char := s.toList.filter fun c => !isDropped c

/-- A segment as it stands in a path. -/
def encoded (s : String) : String :=
  String.ofList (Percent.encode Percent.specialSegment s.toList)

/-- A path that segments are added to; that of a slash alone has none. -/
def bare (segs : List String) : List String := if segs = [""] then [] else segs

/-- What comes of adding a segment. -/
inductive Step where
  /-- Nothing is added. -/
  | stay
  /-- The segment before gives way to an empty one. -/
  | up
  | down (name : String)
  deriving DecidableEq, Repr

/-- What a segment adds. A dot that shows only once characters are dropped
is taken for the dot segment that it then is. -/
def step (s : String) : Step :=
  if adds s then
    if trimmed s = ['.', '.'] then .up
    else if trimmed s = ['.'] then .down ""
    else .down (String.ofList (trimmed s))
  else .stay

/-- A path one step further. -/
def Step.take (segs : List String) : Step → List String
  | stay => segs
  | up => shorten segs ++ [""]
  | down name => segs ++ [encoded name]

/-- A segment is added unless it is one dot or two. -/
theorem adds_iff : adds s = true ↔ s ≠ "." ∧ s ≠ ".." := by
  simp [adds]

/-- A segment that is not added is one dot or two. -/
theorem adds_eq_false_iff : adds s = false ↔ s = "." ∨ s = ".." := by
  rw [← Bool.not_eq_true, adds_iff]
  tauto

/-- A segment is trimmed of nothing if it holds nothing that is dropped. -/
theorem trimmed_eq_iff : trimmed s = s.toList ↔ Kept s := by
  simp [trimmed, Kept, List.filter_eq_self]

/-- A path with a segment that is not empty is not bare. -/
theorem bare_of_mem {t : String} (hmem : t ∈ segs) (ht : t ≠ "") : bare segs = segs := by
  refine if_neg ?_
  rintro rfl
  exact ht (List.mem_singleton.1 hmem)

/-- A segment that is not added leaves the path where it is. -/
theorem step_eq_stay_iff : step s = .stay ↔ adds s = false := by
  unfold step
  split
  case isTrue hadds =>
    rw [hadds]
    split
    · simp
    split
    · simp
    · simp
  case isFalse hadds => simpa using hadds

/-- **A segment that is written whole and is no dot segment is a step down**
to what it names, and no other segment is. -/
theorem step_eq_down_iff : step s = .down s ↔ adds s = true ∧ Kept s := by
  unfold step
  rw [← trimmed_eq_iff]
  split
  case isTrue hadds =>
    obtain ⟨hone, htwo⟩ := adds_iff.1 hadds
    have hofList : ∀ cs : List Char, trimmed s = cs → String.ofList cs ≠ s →
        trimmed s ≠ s.toList := by
      rintro _ rfl hne heq
      exact hne (by rw [heq, String.ofList_toList])
    split
    case isTrue h =>
      have := hofList _ h (Ne.symm htwo)
      simp [this]
    split
    case isTrue h =>
      have hdot := hofList _ h (Ne.symm hone)
      have hempty : "" ≠ s := by
        rintro rfl
        cases h
      simp [hdot, hempty]
    · simp only [Step.down.injEq, hadds, true_and]
      constructor
      · intro h
        rw [← h, String.toList_ofList, h]
      · intro h
        rw [h, String.ofList_toList]
  case isFalse hadds => simp [hadds]

/-! ## Under `http` and `https` -/

/-- Under both schemes the same characters are encoded. -/
theorem segmentSet_eq (hscheme : scheme = "http" ∨ scheme = "https") :
    segmentSet scheme = Percent.specialSegment := by
  rcases hscheme with rfl | rfl <;> rfl

/-- **What adding a segment does** is to take its step. -/
theorem push_eq (hscheme : scheme = "http" ∨ scheme = "https") :
    push scheme segs s = if adds s then (step s).take (bare segs) else segs := by
  have hfile : scheme ≠ "file" := by
    rcases hscheme with rfl | rfl <;> decide
  by_cases hadds : adds s = true
  · have hdot : ¬ (s = "." || s = "..") = true := by
      obtain ⟨hone, htwo⟩ := adds_iff.1 hadds
      simp [hone, htwo]
    unfold push
    simp only [hdot, hadds, hfile, step, if_true, if_false, segmentSet_eq hscheme]
    change (if trimmed s = ['.', '.'] then _ else if trimmed s = ['.'] then _ else _) = _
    split
    case isTrue => rfl
    split
    case isTrue => rfl
    · simp only [Step.take, encoded, String.toList_ofList]
      rfl
  · have hdot : (s = "." || s = "..") = true := by
      simpa using adds_eq_false_iff.1 (Bool.not_eq_true _ ▸ hadds)
    unfold push
    rw [if_pos hdot, if_neg hadds]

/-- Beyond the root, that is all there is to it. -/
theorem push_of_mem (hscheme : scheme = "http" ∨ scheme = "https") {t : String}
    (hmem : t ∈ segs) (ht : t ≠ "") : push scheme segs s = (step s).take segs := by
  rw [push_eq hscheme, bare_of_mem hmem ht]
  by_cases hadds : adds s = true
  · rw [if_pos hadds]
  · rw [if_neg hadds, step, if_neg hadds]
    rfl

/-- **Segments that are written whole add their encodings**, in order. -/
theorem foldl_push_of_mem (hscheme : scheme = "http" ∨ scheme = "https") {t : String}
    (hmem : t ∈ segs) (ht : t ≠ "") {added : List String} (hkept : ∀ s ∈ added, Kept s) :
    added.foldl (push scheme) segs = segs ++ (added.filter adds).map encoded := by
  induction added generalizing segs with
  | nil => simp
  | cons s added ih =>
    have hrest : ∀ s ∈ added, Kept s := fun x hx => hkept x (List.mem_cons_of_mem _ hx)
    rw [List.foldl_cons, push_of_mem hscheme hmem ht]
    by_cases hadds : adds s = true
    · rw [step_eq_down_iff.2 ⟨hadds, hkept s List.mem_cons_self⟩, Step.take,
        ih (List.mem_append_left _ hmem) hrest, List.filter_cons_of_pos hadds, List.map_cons,
        List.append_assoc, List.singleton_append]
    · rw [step, if_neg hadds, Step.take, ih hmem hrest, List.filter_cons_of_neg hadds]

/-- The first of them has a name, and stands at the root or beyond. -/
theorem foldl_push (hscheme : scheme = "http" ∨ scheme = "https") {t : String}
    (hadds : adds t = true) (ht : encoded t ≠ "") {added : List String}
    (hkept : ∀ s ∈ t :: added, Kept s) :
    (t :: added).foldl (push scheme) segs =
      bare segs ++ ((t :: added).filter adds).map encoded := by
  have hrest : ∀ s ∈ added, Kept s := fun x hx => hkept x (List.mem_cons_of_mem _ hx)
  rw [List.foldl_cons, push_eq hscheme, if_pos hadds,
    step_eq_down_iff.2 ⟨hadds, hkept t List.mem_cons_self⟩, Step.take,
    foldl_push_of_mem hscheme (List.mem_append_right _ (List.mem_singleton_self _)) ht hrest,
    List.filter_cons_of_pos hadds, List.map_cons, List.append_assoc, List.singleton_append]

/-! ## What an encoded segment keeps -/

/-- The characters that end a segment, or a path. -/
def separators : List Char := ['/', '?', '#', '\\']

/-- A segment as it stands in a path, for the segment it stands for. -/
structure Encodes (s e : String) : Prop where
  no_separator : ∀ c ∈ separators, c ∉ e.toList
  adds : adds e = true
  decode : Percent.decode e.toList = Utf8.encode s

/-- An encoded segment is decoded to the segment. -/
theorem decode_encoded (s : String) : Percent.decode (encoded s).toList = Utf8.encode s := by
  rw [encoded, String.toList_ofList, Percent.decode_encode (by decide)]
  rfl

/-- Segments that are encoded alike are the same. -/
theorem encoded_injective {t : String} (h : encoded s = encoded t) : s = t :=
  Utf8.encode_injective (by rw [← decode_encoded, h, decode_encoded])

/-- An encoded segment holds no separator. -/
theorem separator_not_mem_encoded (s : String) :
    ∀ c ∈ separators, c ∉ (encoded s).toList := by
  intro c hc hmem
  have hseparator : Percent.isWritten c = false ∧ Percent.specialSegment c = true := by
    simp only [separators, List.mem_cons, List.not_mem_nil, or_false] at hc
    rcases hc with rfl | rfl | rfl | rfl <;> exact ⟨rfl, rfl⟩
  rw [encoded, String.toList_ofList] at hmem
  have hplain := Percent.set_eq_false_of_mem_encode hseparator.1 hmem
  rw [hseparator.2] at hplain
  cases hplain

/-- **The encoding of a segment keeps what it stands for.** -/
theorem encodes_encoded (hadds : adds s = true) : Encodes s (encoded s) where
  no_separator := separator_not_mem_encoded s
  decode := decode_encoded s
  adds := by
    obtain ⟨hone, htwo⟩ := adds_iff.1 hadds
    -- a dot is written as it is, so only a dot is written as a dot
    exact adds_iff.2
      ⟨fun h => hone (encoded_injective (h.trans (by decide))),
        fun h => htwo (encoded_injective (h.trans (by decide)))⟩

/-! ## The text of a path -/

/-- The text of segments, each behind a slash. -/
def slashed (segs : List String) : String := String.join (segs.map ("/" ++ ·))

@[simp] theorem slashed_append (l m : List String) : slashed (l ++ m) = slashed l ++ slashed m := by
  simp [slashed, String.join_append]

/-- The text of a path begins with its first segment. -/
theorem slashed_cons (s : String) (l : List String) :
    slashed (s :: l) = "/" ++ s ++ slashed l := by
  simp [slashed, String.join_cons]

/-- The text of a segment ends where the next one begins. -/
theorem takeWhile_slashed (hs : '/' ∉ s.toList) (l : List String) :
    (s.toList ++ (slashed l).toList).takeWhile (· ≠ '/') = s.toList := by
  have hall : ∀ c ∈ s.toList, decide (c ≠ '/') = true := by
    intro c hc
    refine decide_eq_true ?_
    rintro rfl
    exact hs hc
  have hnext : (slashed l).toList.takeWhile (· ≠ '/') = [] := by
    cases l with
    | nil => rfl
    | cons t l => simp [slashed_cons]
  rw [List.takeWhile_append_of_pos hall, hnext, List.append_nil]

/-- **Segments without slashes are read off their text.** -/
theorem slashed_injective {l m : List String} (hl : ∀ s ∈ l, '/' ∉ s.toList)
    (hm : ∀ s ∈ m, '/' ∉ s.toList) (h : slashed l = slashed m) : l = m := by
  induction l generalizing m with
  | nil =>
    cases m with
    | nil => rfl
    | cons t m =>
      have hlist := congrArg String.toList h
      simp [slashed] at hlist
  | cons s l ih =>
    cases m with
    | nil =>
      have hlist := congrArg String.toList h
      simp [slashed] at hlist
    | cons t m =>
      rw [slashed_cons, slashed_cons, String.append_assoc, String.append_assoc,
        String.append_right_inj] at h
      have hlist : s.toList ++ (slashed l).toList = t.toList ++ (slashed m).toList := by
        rw [← String.toList_append, h, String.toList_append]
      have hfirst : s = t := by
        apply String.toList_injective
        rw [← takeWhile_slashed (hl s List.mem_cons_self) l, hlist,
          takeWhile_slashed (hm t List.mem_cons_self) m]
      obtain rfl := hfirst
      rw [String.append_right_inj] at h
      rw [ih (fun x hx => hl x (List.mem_cons_of_mem _ hx))
        (fun x hx => hm x (List.mem_cons_of_mem _ hx)) h]

end UrlPath

namespace Url

/-- The last segment of the path. -/
def lastSegment? (u : Url) : Option String :=
  match u.path with
  | .plain _ => none
  | .segments segs => segs.getLast?

/-- With other segments in place of the path. -/
def withSegments (u : Url) (segs : List String) : Url := { u with path := .segments segs }

/-- The last segment of a URL is the one that was added last. -/
theorem lastSegment_withSegments {u : Url} {l m : List String} {last : String}
    (h : m.getLast? = some last) : (u.withSegments (l ++ m)).lastSegment? = some last := by
  change (l ++ m).getLast? = some last
  rw [List.getLast?_append, h]
  rfl

/-- **The text of a URL with a host determines that of its path.** -/
theorem slashed_of_text {u : Url} {host : Host} (hhost : u.host = some host) {l m : List String}
    (h : (u.withSegments l).text = (u.withSegments m).text) :
    UrlPath.slashed l = UrlPath.slashed m := by
  have hauthority : (u.withSegments l).authorityText = (u.withSegments m).authorityText := by
    simp only [authorityText, withSegments, hhost]
    rfl
  have hparts : u.scheme ++ ":" ++ (u.withSegments l).authorityText ++ UrlPath.slashed l ++
        markedText "?" u.query ++ markedText "#" u.fragment =
      u.scheme ++ ":" ++ (u.withSegments m).authorityText ++ UrlPath.slashed m ++
        markedText "?" u.query ++ markedText "#" u.fragment := h
  rwa [hauthority, String.append_left_inj, String.append_left_inj, String.append_right_inj]
    at hparts

end Url

end TrafficGate
