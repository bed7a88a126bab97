import TrafficGate.Client
import TrafficGate.Proofs.Client.Sample
import TrafficGate.Proofs.Url.Endpoint
import TrafficGate.Proofs.Url.Segments
/-!
# Where requests go

The URL of a call is the endpoint with the segments of the call behind its
path. None of these segments can reach beyond its place: whatever its
characters are, it is one segment of the URL and stands for itself
(`url_of_segments`). The exceptions are the two dot segments, which leave
no trace, and tabs and line ends, which are dropped.

So an id with a trace of its own is the address of one member of a
collection, and an id without one is not (`url_of_member`): two dots, as the
id of a filter, are the address of all filters (`dots_reach_all`).
-/

namespace TrafficGate

open UrlPath (adds Kept encoded step slashed)

namespace Client

variable {endpoint : Url} {segs : List String}

/-! ## The URL of a list of segments -/

/-- The path that all URLs of the API begin with. -/
def root (segs : List String) : List String :=
  UrlPath.bare (UrlPath.dropTrailing segs) ++ commonSegments

theorem mem_root : "api" ∈ root segs := List.mem_append_right _ (by decide)

/-- The common segments come first, whatever follows. -/
theorem url_eq (h : endpoint.IsEndpoint) (hpath : endpoint.path = .segments segs)
    (segments : List String) :
    url endpoint segments = .ok (endpoint.withSegments
      (segments.foldl (UrlPath.push endpoint.scheme) (root segs))) := by
  have hcommon : commonSegments.foldl (UrlPath.push endpoint.scheme) (UrlPath.dropTrailing segs) =
      root segs := by
    have hkept : ∀ s ∈ commonSegments, Kept s := by decide
    exact UrlPath.foldl_push h.scheme (by decide) (by decide) hkept
  unfold url Url.extend?
  simp only [hpath, List.foldl_append, hcommon]
  rfl

/-- **Segments that are written whole follow in order**, dot segments left
out. -/
theorem url_of_kept (h : endpoint.IsEndpoint) (hpath : endpoint.path = .segments segs)
    {segments : List String} (hkept : ∀ s ∈ segments, Kept s) :
    url endpoint segments =
      .ok (endpoint.withSegments (root segs ++ (segments.filter adds).map encoded)) := by
  rw [url_eq h hpath, UrlPath.foldl_push_of_mem h.scheme mem_root (by decide) hkept]

/-- Behind the root, no two lists of segments have the same text. -/
theorem eq_of_text {host : Host} (hhost : endpoint.host = some host) {front l m : List String}
    (hl : ∀ s ∈ l, '/' ∉ s.toList) (hm : ∀ s ∈ m, '/' ∉ s.toList)
    (h : (endpoint.withSegments (front ++ l)).text = (endpoint.withSegments (front ++ m)).text) :
    l = m := by
  have hslashed := Url.slashed_of_text hhost h
  rw [UrlPath.slashed_append, UrlPath.slashed_append, String.append_right_inj] at hslashed
  exact UrlPath.slashed_injective hl hm hslashed

/-- An encoded segment holds no slash. -/
theorem slash_not_mem_encoded {segments : List String} :
    ∀ e ∈ segments.map encoded, '/' ∉ e.toList := by
  intro e he
  obtain ⟨s, -, rfl⟩ := List.mem_map.1 he
  exact UrlPath.separator_not_mem_encoded s '/' (by decide)

/-- **No segment can break out of its place.** The URL of a list of segments
is the endpoint with another path: what the endpoint begins with, the common
segments, and then each segment in turn, dot segments left out, in a form
that holds nothing with a meaning in a URL and stands for the segment. So
lists without dot segments have URLs of their own. -/
theorem url_of_segments (h : endpoint.IsEndpoint) :
    ∃ front : String,
      (∀ segments : List String, (∀ s ∈ segments, Kept s) →
        ∃ (u : Url) (encodings : List String), url endpoint segments = .ok u ∧
          { u with path := endpoint.path } = endpoint ∧
          u.pathText = front ++ "/api/v1/serverless" ++ slashed encodings ∧
          List.Forall₂ UrlPath.Encodes (segments.filter adds) encodings) ∧
      ∀ l m : List String, (∀ s ∈ l, adds s = true ∧ Kept s) → (∀ s ∈ m, adds s = true ∧ Kept s) →
        ∀ u v : Url, url endpoint l = .ok u → url endpoint m = .ok v → u.text = v.text → l = m := by
  obtain ⟨⟨host, hhost⟩, segs, hpath⟩ := h.isBase
  refine ⟨slashed (UrlPath.bare (UrlPath.dropTrailing segs)), ?_, ?_⟩
  · intro segments hkept
    refine ⟨_, (segments.filter adds).map encoded, url_of_kept h hpath hkept, ?_, ?_, ?_⟩
    · rfl
    · change slashed (root segs ++ _) = _
      rw [root, UrlPath.slashed_append, UrlPath.slashed_append]
      rfl
    · rw [List.forall₂_map_right_iff]
      refine List.forall₂_same.2 fun s hs => ?_
      exact UrlPath.encodes_encoded (List.mem_filter.1 hs).2
  · intro l m hl hm u v hu hv htext
    have hfilter : ∀ k : List String, (∀ s ∈ k, adds s = true ∧ Kept s) → k.filter adds = k :=
      fun k hk => List.filter_eq_self.2 fun s hs => (hk s hs).1
    rw [url_of_kept h hpath fun s hs => (hl s hs).2, hfilter l hl] at hu
    rw [url_of_kept h hpath fun s hs => (hm s hs).2, hfilter m hm] at hv
    obtain rfl := Except.ok.inj hu
    obtain rfl := Except.ok.inj hv
    have hencoded := eq_of_text hhost slash_not_mem_encoded slash_not_mem_encoded htext
    exact List.map_injective_iff.2 (fun _ _ => UrlPath.encoded_injective) hencoded

end Client

/-! ### An endpoint behind a proxy -/

namespace Proxied

def endpoint : Url where
  scheme := "https"
  host := some (.name "cloud.example.com")
  path := .segments ["proxy", ""]
  query := some "q=1"

def client : Client := { Sample.client with endpoint := endpoint }

/-- The text in which it was given has an upper-case scheme and the usual
port. -/
theorem isEndpoint : endpoint.IsEndpoint where
  scheme := .inr rfl
  exists_text := ⟨"HTTPS://cloud.example.com:443/proxy/?q=1", by decide +kernel⟩

/-- Dots, and an id with a slash, a mark and a letter beyond ASCII. -/
def segments : List String := ["projects", "security", "..", "a/é?"]

end Proxied

/-- **The dots are left out, and the id stays in its place.** A slash within
a segment is another thing than two segments. -/
theorem Client.url_of_segments_proxied :
    Proxied.endpoint.IsEndpoint ∧
    (∃ (front : String) (u : Url) (encodings : List String),
      url Proxied.endpoint Proxied.segments = .ok u ∧
      { u with path := Proxied.endpoint.path } = Proxied.endpoint ∧
      u.pathText = front ++ "/api/v1/serverless" ++ slashed encodings ∧
      List.Forall₂ UrlPath.Encodes ["projects", "security", "a/é?"] encodings) ∧
    ∀ u v : Url, url Proxied.endpoint ["a", "b"] = .ok u → url Proxied.endpoint ["a/b"] = .ok v →
      u.text ≠ v.text := by
  obtain ⟨front, hshape, htext⟩ := url_of_segments Proxied.isEndpoint
  refine ⟨Proxied.isEndpoint, ⟨front, ?_⟩, ?_⟩
  · have hfilter : Proxied.segments.filter adds = ["projects", "security", "a/é?"] := by decide
    rw [← hfilter]
    exact hshape Proxied.segments (by decide)
  · intro u v hu hv h
    have hsame := htext ["a", "b"] ["a/b"] (by decide) (by decide) u v hu hv h
    exact absurd hsame (by decide)

/-! ## The address of a member -/

/-- What the API holds many of, each under an id. -/
inductive Collection where
  | filters
  | projects (kind : ProjectKind)
  deriving DecidableEq, Repr, Inhabited

namespace Collection

/-- The segments in front of the one that names the collection. -/
def front : Collection → List String
  | filters => []
  | projects _ => ["projects"]

/-- The segment that names the collection. -/
def name : Collection → String
  | filters => "traffic-filters"
  | projects kind => kind.name

/-- The segments of the collection itself. -/
def segments (k : Collection) : List String := k.front ++ [k.name]

/-- What stands behind the root once a step was taken from the collection. -/
def behind (k : Collection) : UrlPath.Step → List String
  | .stay => k.front ++ [k.name]
  | .up => k.front ++ [""]
  | .down id => k.front ++ [k.name, encoded id]

/-- What the last segment stands for then. -/
def reached (k : Collection) : UrlPath.Step → String
  | .stay => k.name
  | .up => ""
  | .down id => id

variable {k : Collection} {s t : UrlPath.Step}

/-- The names of all collections. -/
def names : List String := "traffic-filters" :: ProjectKind.all.map ProjectKind.name

theorem name_mem_names (k : Collection) : k.name ∈ names := by
  cases k with
  | filters => decide
  | projects kind => cases kind <;> decide

theorem name_ne_empty (k : Collection) : k.name ≠ "" := by
  have hnames : ∀ n ∈ names, n ≠ "" := by decide
  exact hnames _ k.name_mem_names

/-- No name is that of a drive, which would keep its place. -/
theorem isDrive_name (k : Collection) : UrlPath.isDrive k.name = false := by
  have hnames : ∀ n ∈ names, UrlPath.isDrive n = false := by decide
  exact hnames _ k.name_mem_names

/-- The segments of a collection need no encoding. -/
theorem encoded_segments (k : Collection) :
    (∀ s ∈ k.segments, Kept s) ∧ (k.segments.filter adds).map encoded = k.segments := by
  cases k with
  | filters => decide
  | projects kind => cases kind <;> decide

/-- **Each step leads to a place of its own.** -/
theorem behind_injective (h : k.behind s = k.behind t) : s = t := by
  have hname := k.name_ne_empty
  cases s with
  | stay => cases t <;> simp_all [behind]
  | up => cases t <;> simp_all [behind]
  | down id =>
    cases t with
    | stay => simp [behind] at h
    | up => simp [behind] at h
    | down id' =>
      simp only [behind, List.append_cancel_left_eq, List.cons.injEq, true_and, and_true] at h
      rw [UrlPath.encoded_injective h]

/-- No two members have one place behind the root. -/
theorem eq_of_behind_down {k' : Collection} {a b : String}
    (h : k.behind (.down a) = k'.behind (.down b)) : k = k' ∧ a = b := by
  cases k with
  | filters =>
    cases k' with
    | filters => exact ⟨rfl, UrlPath.Step.down.inj (behind_injective h)⟩
    | projects kind => simp [behind, front, name] at h
  | projects kind =>
    cases k' with
    | filters => simp [behind, front, name] at h
    | projects kind' =>
      simp only [behind, front, List.cons_append, List.nil_append, List.cons.injEq, true_and,
        and_true] at h
      have hkinds : ∀ n, ProjectKind.ofName? (projects n).name = some n := by
        intro n
        cases n <;> rfl
      have hkind : kind = kind' :=
        Option.some.inj (by rw [← hkinds kind, h.1, hkinds kind'])
      exact ⟨congrArg projects hkind, UrlPath.encoded_injective h.2⟩

/-- What is added behind a collection holds no slash. -/
theorem slash_not_mem_behind : ∀ e ∈ k.behind s, '/' ∉ e.toList := by
  have hnames : ∀ n ∈ names, '/' ∉ n.toList := by decide
  have hname : '/' ∉ k.name.toList := hnames _ k.name_mem_names
  have hfront : ∀ e ∈ k.front, '/' ∉ e.toList := by
    have hprojects : ∀ e ∈ ["projects"], '/' ∉ e.toList := by decide
    cases k with
    | filters => simp [front]
    | projects kind => exact hprojects
  cases s with
  | stay => simpa [behind, or_imp, forall_and, hname] using hfront
  | up => simpa [behind, or_imp, forall_and] using hfront
  | down id =>
    have hid := UrlPath.separator_not_mem_encoded id '/' (by decide)
    simpa [behind, or_imp, forall_and, hname, hid] using hfront

theorem take_append (k : Collection) (root : List String) (s : UrlPath.Step) :
    s.take (root ++ k.segments) = root ++ k.behind s := by
  cases s with
  | stay => rfl
  | up =>
    rw [UrlPath.Step.take, segments, ← List.append_assoc, UrlPath.shorten, List.getLast?_concat]
    simp [isDrive_name, behind]
  | down id => simp [UrlPath.Step.take, segments, behind]

end Collection

/-- The member of a collection that a call is about, if there is one. -/
def Call.member? : Call → Option (Collection × String)
  | getProject kind id => some (.projects kind, id)
  | patchProject kind id _ => some (.projects kind, id)
  | createFilter _ => none
  | getFilter id => some (.filters, id)
  | patchFilter id _ => some (.filters, id)
  | deleteFilter id => some (.filters, id)

/-- The segments of a call for a member are those of the collection, and the
id. -/
theorem Call.segments_of_member {c : Call} {k : Collection} {id : String}
    (h : c.member? = some (k, id)) : c.segments = k.segments ++ [id] := by
  cases c with
  | createFilter creation => cases h
  | getProject kind id' => cases h; rfl
  | patchProject kind id' patch => cases h; rfl
  | getFilter id' => cases h; rfl
  | patchFilter id' patch => cases h; rfl
  | deleteFilter id' => cases h; rfl

/-- An id that leaves a trace of its own in a URL: no dot segment, and
written whole. -/
def Addressable (id : String) : Prop := adds id = true ∧ Kept id

instance (id : String) : Decidable (Addressable id) :=
  inferInstanceAs (Decidable (adds id = true ∧ Kept id))

namespace Collection

variable {k : Collection} {id : String}

/-- The last segment decodes to what was reached. -/
theorem decode_getLast_behind (k : Collection) (s : UrlPath.Step) :
    ∃ last, (k.behind s).getLast? = some last ∧
      Percent.decode last.toList = Utf8.encode (k.reached s) := by
  cases s with
  | stay =>
    have hnames : ∀ n ∈ names, Percent.decode n.toList = Utf8.encode n := by decide
    exact ⟨k.name, by simp [behind], hnames _ k.name_mem_names⟩
  | up => exact ⟨"", by simp [behind], rfl⟩
  | down id => exact ⟨encoded id, by simp [behind], UrlPath.decode_encoded id⟩

/-- A step that reaches the id itself is a step down to it. -/
theorem reached_step_iff : k.reached (step id) = id ↔ step id = .down id := by
  constructor
  · intro hid
    cases hstep : step id with
    | stay =>
      -- no collection is named like a dot segment
      have hnames : ∀ n ∈ names, step n = .down n := by decide
      rw [hstep] at hid
      rw [← hid, reached, hnames _ k.name_mem_names] at hstep
      cases hstep
    | up =>
      rw [hstep] at hid
      rw [← hid] at hstep
      cases hstep
    | down name =>
      rw [hstep] at hid
      exact congrArg UrlPath.Step.down hid
  · intro hstep
    rw [hstep, reached]

end Collection

namespace Client

variable {endpoint : Url} {segs : List String}

/-- A member is a step away from its collection. -/
theorem url_of_segments_concat (h : endpoint.IsEndpoint) (hpath : endpoint.path = .segments segs)
    (k : Collection) (id : String) :
    url endpoint (k.segments ++ [id]) =
      .ok (endpoint.withSegments (root segs ++ k.behind (step id))) := by
  obtain ⟨hkept, hencoded⟩ := k.encoded_segments
  have hmem : "api" ∈ root segs ++ k.segments := List.mem_append_left _ mem_root
  rw [url_eq h hpath, List.foldl_append,
    UrlPath.foldl_push_of_mem h.scheme mem_root (by decide) hkept, hencoded, List.foldl_cons,
    List.foldl_nil, UrlPath.push_of_mem h.scheme hmem (by decide), k.take_append]

/-- **Where a call about a member goes**, under every endpoint and whatever
the id is. It goes to the collection itself exactly where the id is a dot
segment, two ids have one address exactly where they are the same step, and
the last segment of the address stands for the id exactly where the id is
addressable. So an addressable id has an address of its own among those of
all members of all collections. -/
theorem url_of_member (h : endpoint.IsEndpoint) {c d : Call} {k k' : Collection} {a b : String}
    (hc : c.member? = some (k, a)) (hd : d.member? = some (k', b)) :
    ∃ whole u v : Url, url endpoint k.segments = .ok whole ∧ url endpoint c.segments = .ok u ∧
      url endpoint d.segments = .ok v ∧
      (u.text = whole.text ↔ a = "." ∨ a = "..") ∧
      (k = k' → (u.text = v.text ↔ step a = step b)) ∧
      ((∃ last, u.lastSegment? = some last ∧ Percent.decode last.toList = Utf8.encode a) ↔
        Addressable a) ∧
      (Addressable a → Addressable b → (k, a) ≠ (k', b) → u.text ≠ v.text) := by
  obtain ⟨⟨host, hhost⟩, segs, hpath⟩ := h.isBase
  have htext : ∀ (l l' : Collection) (s t : UrlPath.Step),
      (endpoint.withSegments (root segs ++ l.behind s)).text =
        (endpoint.withSegments (root segs ++ l'.behind t)).text → l.behind s = l'.behind t :=
    fun _ _ _ _ => eq_of_text hhost Collection.slash_not_mem_behind Collection.slash_not_mem_behind
  have hstep : ∀ s t : UrlPath.Step,
      (endpoint.withSegments (root segs ++ k.behind s)).text =
        (endpoint.withSegments (root segs ++ k.behind t)).text ↔ s = t := by
    intro s t
    constructor
    · exact fun hst => Collection.behind_injective (htext k k s t hst)
    · rintro rfl
      rfl
  have hwhole : url endpoint k.segments =
      .ok (endpoint.withSegments (root segs ++ k.behind .stay)) := by
    rw [url_of_kept h hpath k.encoded_segments.1, k.encoded_segments.2]
    rfl
  refine ⟨_, _, _, hwhole, Call.segments_of_member hc ▸ url_of_segments_concat h hpath k a,
    Call.segments_of_member hd ▸ url_of_segments_concat h hpath k' b, ?_, ?_, ?_, ?_⟩
  · rw [hstep, UrlPath.step_eq_stay_iff, UrlPath.adds_eq_false_iff]
  · rintro rfl
    exact hstep _ _
  · obtain ⟨last, hlast, hdecode⟩ := k.decode_getLast_behind (step a)
    rw [Addressable, ← UrlPath.step_eq_down_iff, ← Collection.reached_step_iff,
      Url.lastSegment_withSegments hlast]
    constructor
    · rintro ⟨_, hsome, hid⟩
      obtain rfl := Option.some.inj hsome
      exact Utf8.encode_injective (hdecode.symm.trans hid)
    · intro hid
      exact ⟨last, rfl, by rw [hdecode, hid]⟩
  · intro ha hb hne hsame
    rw [UrlPath.step_eq_down_iff.2 ha, UrlPath.step_eq_down_iff.2 hb] at hsame
    obtain ⟨rfl, rfl⟩ := Collection.eq_of_behind_down (htext _ _ _ _ hsame)
    exact hne rfl

/-- An id that looks like a path has an address of its own, and the text of
another does not lead there. -/
theorem url_of_member_slashed :
    Proxied.endpoint.IsEndpoint ∧ Addressable "../b" ∧
    ∃ whole u v : Url, url Proxied.endpoint Collection.filters.segments = .ok whole ∧
      url Proxied.endpoint (Call.deleteFilter "../b").segments = .ok u ∧
      url Proxied.endpoint (Call.getProject .security "b").segments = .ok v ∧
      u.text ≠ whole.text ∧ u.text ≠ v.text ∧
      ∃ last, u.lastSegment? = some last ∧ Percent.decode last.toList = Utf8.encode "../b" := by
  have hslashed : Addressable "../b" := by decide
  obtain ⟨whole, u, v, hwhole, hu, hv, hdots, -, hlast, hown⟩ :=
    url_of_member Proxied.isEndpoint (c := .deleteFilter "../b") (d := .getProject .security "b")
      rfl rfl
  exact ⟨Proxied.isEndpoint, hslashed, whole, u, v, hwhole, hu, hv,
    fun h => absurd (hdots.1 h) (by decide), hown hslashed (by decide) (by decide),
    hlast.2 hslashed⟩

/-- **Two dots are the address of all filters**, and so is one: to delete the
filter of that id is a request to the collection. And an id with a tab has
the address of the id without it. -/
theorem dots_reach_all :
    Proxied.endpoint.IsEndpoint ∧
    (∃ whole : Url, url Proxied.endpoint Collection.filters.segments = .ok whole ∧
      url Proxied.endpoint (Call.deleteFilter ".").segments = .ok whole ∧
      Proxied.client.request (.deleteFilter "..") = .ok ⟨.delete, whole, "ApiKey key", none⟩) ∧
    url Proxied.endpoint (Call.deleteFilter "a\tb").segments =
      url Proxied.endpoint (Call.deleteFilter "ab").segments :=
  ⟨Proxied.isEndpoint, ⟨_, rfl, rfl, rfl⟩, rfl⟩

end Client

end TrafficGate
