import Eliot.Capture.Hosts
import Eliot.Text.Encoding
import Eliot.Text.Preferred

namespace Capture
open Text Hosts List Regex

inductive UrlGuardReason where
  | invalidUrl
  | blocked
  | redirect
  | tooLarge
  | badStatus
  | timeout
  | fetchFailed
deriving DecidableEq

structure UrlGuardError where
  reason : UrlGuardReason
  message : Text
deriving DecidableEq

def UrlGuardError.unavailable (error : UrlGuardError) : Bool :=
  error.reason = .timeout || error.reason = .fetchFailed || error.reason = .badStatus

def UrlGuardError.status (error : UrlGuardError) : Nat := if error.unavailable then 503 else 400

structure Url where
  href : Text
  protocol : Text
  username : Text
  password : Text
  port : Text
  hostname : Text
  host : Text
  pathname : Text
deriving DecidableEq

/-- What the platform provides: the parser of URLs, whose hosts are those of the standard, whether the
    number of a text is above a limit, `decodeURIComponent` and `toLowerCase`. -/
structure Platform where
  parse : Text → Option Text → Option Url
  hosts : ∀ input base url, parse input base = some url → url.protocol = prose "https:" rfl → HostForm url.hostname
  above : Text → Nat → Bool
  decodeUri : Text → Option Text
  lower : Text → Text

def maxUrlChars : Nat := 8192
def maxRedirects : Nat := 3
def totalTimeoutMs : Int := 15000
def maxBytes : Nat := 25 * 1024 * 1024
def maxFilenameChars : Nat := 128

def blockedSuffixes : List Text :=
  [prose ".localhost" rfl, prose ".local" rfl, prose ".internal" rfl, prose ".lan" rfl, prose ".home" rfl,
    prose ".corp" rfl, prose ".intranet" rfl, prose ".invalid" rfl, prose ".example" rfl, prose ".test" rfl,
    prose ".home.arpa" rfl]

def redirectStatuses : List Nat := [301, 302, 303, 307, 308]

def number : Regex Nat := (Regex.one isDigit).plus
def unit (wanted : Nat) : Regex Nat := .one (· == wanted)

/-- `/^\d+\.\d+\.\d+\.\d+$/` -/
def ipv4Dotted : Regex Nat :=
  .seq (.all [number, unit dot, number, unit dot, number, unit dot, number]) .finish

/-- `replace(/\.$/, "")` -/
def withoutDot (host : Text) : Text := if host.getLast? = some dot then host.dropLast else host

def blocked (message : Text) : UrlGuardError := ⟨.blocked, message⟩
def quoted (value : Text) : Text := 34 :: value ++ [34]

def checkHost (host : Text) : Except UrlGuardError Unit :=
  if 58 ∈ host ∨ ipv4Dotted.test host then
    .error (blocked (prose "IP addresses cannot be captured. Use a public DNS hostname." rfl))
  else if host = prose "localhost" rfl then .error (blocked (quoted host ++ prose " cannot be captured." rfl))
  else
    match blockedSuffixes.find? (·.isSuffixOf host) with
    | some suffix => .error (blocked (prose "Names under " rfl ++ quoted suffix ++ prose " cannot be captured." rfl))
    | none =>
      if dot ∉ host then
        .error (blocked (prose "Single-label hostnames cannot be captured. Use a public DNS hostname." rfl))
      else .ok ()

def parseSource (platform : Platform) (input : Text) : Except UrlGuardError Url :=
  let trimmed := trim input
  if trimmed = [] then .error ⟨.invalidUrl, prose "A source URL must not be empty." rfl⟩
  else if maxUrlChars < trimmed.length then
    .error ⟨.invalidUrl, prose "A source URL must be at most 8192 characters." rfl⟩
  else
    match platform.parse trimmed none with
    | none => .error ⟨.invalidUrl, prose "That URL could not be parsed. Use an absolute https:// URL." rfl⟩
    | some url =>
      if url.protocol ≠ prose "https:" rfl then
        .error (blocked (prose "Only https:// URLs can be captured (got " rfl ++ quoted url.protocol ++ prose ")." rfl))
      else if url.username ≠ [] ∨ url.password ≠ [] then
        .error (blocked (prose "URLs with credentials cannot be captured." rfl))
      else if url.port ≠ [] ∧ url.port ≠ prose "443" rfl then
        .error (blocked (prose "Only the default https port (443) can be captured." rfl))
      else .ok url

def validateSourceUrl (platform : Platform) (input : Text) : Except UrlGuardError Url := do
  let url ← parseSource platform input
  checkHost (withoutDot url.hostname)
  return url

def search (regex : Regex Nat) (text : Text) : Option (Regex.Match Nat) := text.tails.findSome? regex.exec

def letters (test : Nat → Nat → Bool) (word : Text) : List (Regex Nat) := word.map fun letter => .one (test letter)

/-- A letter as the flag `i` matches it. -/
def anyCase (letter code : Nat) : Bool :=
  code == letter || (97 ≤ letter && letter ≤ 122 && code + 32 == letter)

def isBlank : Regex Nat := .star (.one isSpace)

/-- `/filename\*\s*=\s*(?:utf-8''|UTF-8'')?([^;]+)/` -/
def extendedName : Regex Nat :=
  .all (letters (· == ·) (prose "filename*" rfl) ++ [isBlank, unit 61, isBlank,
    .alt (.all (letters (· == ·) (prose "utf-8''" rfl))) (.alt (.all (letters (· == ·) (prose "UTF-8''" rfl))) .empty),
    .capture (Regex.one (· != 59)).plus])

/-- `/filename\s*=\s*"([^"]+)"|filename\s*=\s*([^;,\s]+)/i` -/
def quotedName : Regex Nat :=
  .alt
    (.all (letters anyCase (prose "filename" rfl) ++ [isBlank, unit 61, isBlank, unit 34,
      .capture (Regex.one (· != 34)).plus, unit 34]))
    (.all (letters anyCase (prose "filename" rfl) ++ [isBlank, unit 61, isBlank,
      .capture (Regex.one fun code => code != 59 && code != 44 && !isSpace code).plus]))

def captured (regex : Regex Nat) (text : Text) : Option Text := (search regex text).bind fun once => once.captures.head?

/-- `replace(/^"|"$/g, "")` -/
def withoutQuotes (text : Text) : Text :=
  let opened := if text.head? = some 34 then text.tail else text
  if opened.getLast? = some 34 then opened.dropLast else opened

def sanitizeFilename (platform : Platform) (value : Text) : Text :=
  let name := if 37 ∈ value then (platform.decodeUri value).getD value else value
  let clean := name.filter fun code => code ≠ 47 && code ≠ 92 && !(code < 32 || code == 127)
  (trim ((trim clean).dropWhile (· = dot))).take maxFilenameChars

def filenameFrom (platform : Platform) (finalUrl : Url) (disposition : Option Text) : Text :=
  let named := match disposition with
    | none => []
    | some disposition =>
      [withoutQuotes (trim ((captured extendedName disposition).getD [])),
        trim ((captured quotedName disposition).getD [])]
  let candidates := named ++ [finalUrl.pathname.rtakeWhile (· ≠ 47)]
  ((candidates.map (sanitizeFilename platform)).find? (· ≠ [])).getD (prose "download" rfl)

inductive Chunk where
  | chunk (bytes : List UInt8)
  | done
  | aborted
  | broken

structure Read where
  now : Int
  result : Chunk

structure Response where
  status : Nat
  location : Option Text
  contentLength : Option Text
  contentType : Option Text
  contentDisposition : Option Text
  body : Option (List Read)

inductive Answer where
  | aborted
  | failed
  | response (response : Response)

structure Hop where
  now : Int
  answer : Answer

structure CapturedUrl where
  bytes : List UInt8
  mimeType : Text
  filename : Text
  url : Text

inductive Outcome (Value : Type) where
  | done (value : Value)
  | failed (error : UrlGuardError)
  | pending

def timeoutError : UrlGuardError := ⟨.timeout, prose "Capture timed out after 15 seconds." rfl⟩

def fetchFailed (current : Url) : UrlGuardError :=
  ⟨.fetchFailed, prose "Could not fetch " rfl ++ quoted current.host ++
    prose ". The site may be down or blocking automated reads." rfl⟩

def interrupted (current : Url) : UrlGuardError :=
  ⟨.fetchFailed, prose "The download from " rfl ++ quoted current.host ++ prose " was interrupted." rfl⟩

def redirectError (message : Text) : UrlGuardError := ⟨.redirect, message⟩

def followRedirects (platform : Platform) (startedAt : Int) :
    (hops : List Hop) → (redirects : Nat) → (current : Url) → List Url × Outcome (Url × Response)
  | [], _, current => ([current], .pending)
  | hop :: hops, redirects, current =>
    -- The time left is asked for inside the `try`, so that its error is replaced.
    if totalTimeoutMs - (hop.now - startedAt) ≤ 0 then ([], .failed (fetchFailed current))
    else
      match hop.answer with
      | .aborted => ([current], .failed timeoutError)
      | .failed => ([current], .failed (fetchFailed current))
      | .response response =>
        if response.status ∉ redirectStatuses then ([current], .done (current, response))
        else if trim (response.location.getD []) = [] then
          ([current], .failed (redirectError
            (prose "A redirect from " rfl ++ quoted current.host ++ prose " has no Location to follow." rfl)))
        else if maxRedirects ≤ redirects then
          ([current], .failed (redirectError (prose "Too many redirects (more than 3)." rfl)))
        else
          match platform.parse (response.location.getD []) (some current.href) with
          | none =>
            ([current], .failed (redirectError
              (prose "A redirect from " rfl ++ quoted current.host ++ prose " points to an invalid URL." rfl)))
          | some next =>
            match validateSourceUrl platform next.href with
            | .error error => ([current], .failed error)
            | .ok next =>
              let followed := followRedirects platform startedAt hops (redirects + 1) next
              (current :: followed.1, followed.2)

/-- The chunks of a body, of which `total` bytes were read before. -/
def readChunks (startedAt : Int) (current : Url) : (reads : List Read) → (total : Nat) → Outcome (List (List UInt8))
  | [], _ => .pending
  | read :: reads, total =>
    if totalTimeoutMs < read.now - startedAt then .failed timeoutError
    else
      match read.result with
      | .done => .done []
      | .aborted => .failed timeoutError
      | .broken => .failed (interrupted current)
      | .chunk bytes =>
        if maxBytes < total + bytes.length then
          .failed ⟨.tooLarge, prose "That download exceeded 25 MiB and was stopped before buffering." rfl⟩
        else
          match readChunks startedAt current reads (total + bytes.length) with
          | .done chunks => .done (bytes :: chunks)
          | .failed error => .failed error
          | .pending => .pending

/-- `bytes.set(chunk, offset)` -/
def setBytes (bytes : List UInt8) (offset : Nat) (chunk : List UInt8) : List UInt8 :=
  bytes.take offset ++ chunk ++ bytes.drop (offset + chunk.length)

def joinChunks (chunks : List (List UInt8)) : List UInt8 :=
  (chunks.foldl (fun (state : List UInt8 × Nat) chunk =>
      (setBytes state.1 state.2 chunk, state.2 + chunk.length))
    (List.replicate (chunks.map (·.length)).sum 0, 0)).1

def mimeOf (platform : Platform) (response : Response) : Text :=
  let mime := platform.lower (trim ((response.contentType.getD []).takeWhile (· ≠ 59)))
  if 47 ∈ mime then mime else prose "application/octet-stream" rfl

def receive (platform : Platform) (startedAt : Int) (current : Url) (response : Response) : Outcome CapturedUrl :=
  if ¬(200 ≤ response.status ∧ response.status ≤ 299) then
    .failed ⟨.badStatus, prose "Capture failed with status " rfl ++ decimal response.status ++ prose " for " rfl ++
      quoted current.host ++ prose "." rfl⟩
  else if platform.above (trim (response.contentLength.getD [])) maxBytes then
    .failed ⟨.tooLarge, prose "That file is larger than 25 MiB and cannot be captured." rfl⟩
  else
    let captured (chunks : List (List UInt8)) : CapturedUrl :=
      ⟨joinChunks chunks, mimeOf platform response,
        filenameFrom platform current response.contentDisposition, current.href⟩
    match response.body with
    | none => .done (captured [])
    | some reads =>
      match readChunks startedAt current reads 0 with
      | .done chunks => .done (captured chunks)
      | .failed error => .failed error
      | .pending => .pending

def captureUrl (platform : Platform) (input : Text) (startedAt : Int) (hops : List Hop) :
    List Url × Outcome CapturedUrl :=
  match validateSourceUrl platform input with
  | .error error => ([], .failed error)
  | .ok current =>
    let followed := followRedirects platform startedAt hops 0 current
    (followed.1,
      match followed.2 with
      | .done (current, response) => receive platform startedAt current response
      | .failed error => .failed error
      | .pending => .pending)

section
variable {platform : Platform} {startedAt : Int}

theorem followRedirects_requests (hops : List Hop) (redirects : Nat) (current : Url) (few : redirects ≤ maxRedirects) :
    (followRedirects platform startedAt hops redirects current).1.length + redirects ≤ maxRedirects + 1 ∧
    (∀ url ∈ (followRedirects platform startedAt hops redirects current).1,
      url = current ∨ ∃ text, validateSourceUrl platform text = .ok url) ∧
    ∀ final response, (followRedirects platform startedAt hops redirects current).2 = .done (final, response) →
      ∃ hop ∈ hops, hop.answer = .response response := by
  have one : [current].length + redirects ≤ maxRedirects + 1 := by
    rw [length_singleton]
    omega
  have asked : ∀ url ∈ [current], url = current ∨ ∃ text, validateSourceUrl platform text = .ok url := by simp
  induction hops generalizing redirects current with
  | nil => exact ⟨one, asked, by simp [followRedirects]⟩
  | cons hop hops ih =>
    unfold followRedirects
    split
    · exact ⟨by simpa using Nat.le_succ_of_le few, by simp, by simp⟩
    · split
      · exact ⟨one, asked, by simp⟩
      · exact ⟨one, asked, by simp⟩
      · rename_i response answered
        split
        · refine ⟨one, asked, ?_⟩
          intro final other same
          obtain ⟨-, rfl⟩ : current = final ∧ response = other := by simpa using same
          exact ⟨hop, mem_cons_self, answered⟩
        · split
          · exact ⟨one, asked, by simp⟩
          · split
            · exact ⟨one, asked, by simp⟩
            · rename_i more
              split
              · exact ⟨one, asked, by simp⟩
              · split
                · exact ⟨one, asked, by simp⟩
                · rename_i next accepted
                  have again : redirects + 1 ≤ maxRedirects := by omega
                  obtain ⟨count, urls, last⟩ := ih (redirects + 1) next again
                    (by rw [length_singleton]; omega) (by simp)
                  refine ⟨by simp only [length_cons]; omega, ?_, ?_⟩
                  · intro url listed
                    rcases mem_cons.mp listed with rfl | listed
                    · exact .inl rfl
                    · rcases urls url listed with rfl | known
                      · exact .inr ⟨_, accepted⟩
                      · exact .inr known
                  · intro final response done
                    obtain ⟨hop, listed, answer⟩ := last final response done
                    exact ⟨hop, mem_cons_of_mem _ listed, answer⟩

end

section
variable {startedAt : Int} {current : Url}

theorem readChunks_done {reads : List Read} {total : Nat} {chunks : List (List UInt8)}
    (small : total ≤ maxBytes) (done : readChunks startedAt current reads total = .done chunks) :
    total + chunks.flatten.length ≤ maxBytes ∧
      ∃ rest, reads.map (·.result) = chunks.map Chunk.chunk ++ Chunk.done :: rest := by
  induction reads generalizing total chunks with
  | nil => simp [readChunks] at done
  | cons read reads ih =>
    unfold readChunks at done
    split at done
    · cases done
    · split at done
      · rename_i ended
        injection done with same
        subst same
        exact ⟨by simpa using small, reads.map (·.result), by simp [ended]⟩
      · cases done
      · cases done
      · rename_i bytes streamed
        split at done
        · cases done
        · rename_i fits
          cases later : readChunks startedAt current reads (total + bytes.length) with
          | done others =>
            rw [later] at done
            injection done with same
            subst same
            obtain ⟨bounded, rest, shape⟩ := ih (Nat.not_lt.mp fits) later
            refine ⟨by rw [flatten_cons, length_append]; omega, rest, ?_⟩
            rw [map_cons, map_cons, streamed, shape, cons_append]
          | failed error =>
            rw [later] at done
            cases done
          | pending =>
            rw [later] at done
            cases done

theorem joinChunks_flatten (chunks : List (List UInt8)) : joinChunks chunks = chunks.flatten := by
  have copied (chunks : List (List UInt8)) (front : List UInt8) :
      (chunks.foldl (fun (state : List UInt8 × Nat) chunk =>
          (setBytes state.1 state.2 chunk, state.2 + chunk.length))
        (front ++ List.replicate (chunks.map (·.length)).sum 0, front.length)).1 = front ++ chunks.flatten := by
    induction chunks generalizing front with
    | nil => simp
    | cons chunk chunks ih =>
      have placed : setBytes (front ++ List.replicate ((chunk :: chunks).map (·.length)).sum 0) front.length chunk =
          (front ++ chunk) ++ List.replicate (chunks.map (·.length)).sum 0 := by
        rw [setBytes, take_left, map_cons, sum_cons, drop_append, Nat.add_sub_cancel_left,
          drop_replicate, Nat.add_sub_cancel_left, drop_eq_nil_of_le (Nat.le_add_right _ _), nil_append]
      have length : front.length + chunk.length = (front ++ chunk).length := length_append.symm
      rw [foldl_cons]
      dsimp only
      rw [placed, length, ih, flatten_cons, append_assoc]
  have whole := copied chunks []
  rw [nil_append, nil_append, length_nil] at whole
  exact whole

end

section
variable {platform : Platform} {host : Text}

def Barred (name : Text) : Prop :=
  name = prose "localhost" rfl ∨ 58 ∈ name ∨ (readIpv4 name).isSome = true ∨
    (∃ suffix ∈ blockedSuffixes, suffix <:+ name) ∨ (parts name).length < 2

theorem exec_number {value : Nat} {rest : Text} (apart : Apart rest) :
    number.exec (decimal value ++ rest) = some ⟨[], rest⟩ := by
  have digits := decimal_digits value
  have split := takeWhile_digits digits apart
  cases shape : decimal value with
  | nil => exact absurd shape (decimal_ne_nil value)
  | cons digit others =>
    rw [shape] at digits split
    have first := digits digit mem_cons_self
    rw [cons_append, dropWhile_cons_of_pos first] at split
    rw [cons_append, number, exec_plus_one first, split.2]

theorem apart_dot (rest : Text) : Apart (dot :: rest) := by
  intro unit head
  rw [← Option.some.inj head]
  rfl

theorem ipv4Dotted_dotted (first second third fourth : Nat) : ipv4Dotted.test (dotted first second third fourth) = true := by
  have last : number.exec (decimal fourth) = some ⟨[], []⟩ := by
    have none : Apart [] := by
      intro unit head
      cases head
    have found := @exec_number fourth [] none
    rwa [append_nil] at found
  have point (rest : Text) : (unit dot).exec (dot :: rest) = some ⟨[], rest⟩ := exec_one (by simp)
  have whole : (Regex.all [number, unit dot, number, unit dot, number, unit dot, number]).exec
      (dotted first second third fourth) = some ⟨[], []⟩ :=
    exec_seq (exec_number (apart_dot _)) (exec_seq (point _) (exec_seq (exec_number (apart_dot _))
      (exec_seq (point _) (exec_seq (exec_number (apart_dot _)) (exec_seq (point _) last)))))
  have finish : (Regex.finish : Regex Nat).exec [] = some ⟨[], []⟩ := rfl
  have found : ipv4Dotted.exec (dotted first second third fourth) = some ⟨[], []⟩ := exec_seq whole finish
  rw [Regex.test, found]
  rfl

theorem ipv4Dotted_ended (form : ipv4Dotted.test host = true) : host.getLast? ≠ some dot := by
  have digit (word : Text) (accepted : number.Accepts word) : ∃ unit, word.getLast? = some unit ∧ isDigit unit = true := by
    obtain ⟨filled, all⟩ := accepted.plus_one
    exact ⟨_, getLast?_eq_some_getLast filled, all _ (getLast_mem filled)⟩
  have behind (first second : Regex Nat) (word : Text) (accepted : (Regex.seq first second).Accepts word)
      (ends : ∀ part, second.Accepts part → ∃ unit, part.getLast? = some unit ∧ isDigit unit = true) :
      ∃ unit, word.getLast? = some unit ∧ isDigit unit = true := by
    obtain ⟨left, right, rfl, -, last⟩ := accepted.seq_split
    obtain ⟨unit, same, known⟩ := ends right last
    exact ⟨unit, by rw [getLast?_append, same]; rfl, known⟩
  have accepted := accepts_of_test form
  obtain ⟨unit, last, known⟩ := behind _ _ host accepted fun part accepted =>
    behind _ _ part accepted fun part accepted => behind _ _ part accepted fun part accepted =>
      behind _ _ part accepted fun part accepted => behind _ _ part accepted fun part accepted =>
        behind _ _ part accepted digit
  intro ended
  rw [last] at ended
  rw [Option.some.inj ended] at known
  exact absurd known (by decide)

theorem checkHost_ok : checkHost host = .ok () ↔ (58 ∉ host ∧ ipv4Dotted.test host = false) ∧
    host ≠ prose "localhost" rfl ∧ (∀ suffix ∈ blockedSuffixes, ¬ suffix <:+ host) ∧ dot ∈ host := by
  unfold checkHost
  by_cases address : 58 ∈ host ∨ ipv4Dotted.test host = true
  · rw [if_pos address]
    constructor
    · intro ok
      cases ok
    · rintro ⟨⟨colon, form⟩, -⟩
      rcases address with address | address
      · exact absurd address colon
      · rw [form] at address
        cases address
  · rw [if_neg address]
    have named : 58 ∉ host ∧ ipv4Dotted.test host = false :=
      ⟨fun colon => address (.inl colon), by simpa using fun form => address (.inr form)⟩
    by_cases here : host = prose "localhost" rfl
    · rw [if_pos here]
      constructor
      · intro ok
        cases ok
      · rintro ⟨-, other, -⟩
        exact absurd here other
    · rw [if_neg here]
      cases found : blockedSuffixes.find? (·.isSuffixOf host) with
      | some suffix =>
        have listed := mem_of_find?_eq_some found
        have under : suffix <:+ host := isSuffixOf_iff_suffix.mp (by simpa using find?_some found)
        constructor
        · intro ok
          cases ok
        · rintro ⟨-, -, free, -⟩
          exact absurd under (free suffix listed)
      | none =>
        have free : ∀ suffix ∈ blockedSuffixes, ¬ suffix <:+ host := by
          intro suffix listed under
          have missed := find?_eq_none.mp found suffix listed
          exact missed (isSuffixOf_iff_suffix.mpr under)
        dsimp only
        by_cases labels : dot ∈ host
        · rw [if_neg (not_not.mpr labels)]
          exact ⟨fun _ => ⟨named, here, free, labels⟩, fun _ => rfl⟩
        · rw [if_pos labels]
          constructor
          · intro ok
            cases ok
          · rintro ⟨-, -, -, dotted⟩
            exact absurd dotted labels

theorem validateSourceUrl_ok {input : Text} {url : Url} :
    validateSourceUrl platform input = .ok url ↔
      parseSource platform input = .ok url ∧ checkHost (withoutDot url.hostname) = .ok () := by
  unfold validateSourceUrl
  cases parseSource platform input with
  | error error => simp [bind, Except.bind]
  | ok parsed =>
    have shape : (do checkHost (withoutDot parsed.hostname); return parsed : Except UrlGuardError Url) = .ok url ↔
        checkHost (withoutDot parsed.hostname) = .ok () ∧ parsed = url := by
      cases checkHost (withoutDot parsed.hostname) with
      | error error => simp [bind, Except.bind]
      | ok none => simp [bind, Except.bind, pure, Except.pure]
    show (do checkHost (withoutDot parsed.hostname); return parsed : Except UrlGuardError Url) = .ok url ↔ _
    rw [shape]
    constructor
    · rintro ⟨checked, rfl⟩
      exact ⟨rfl, checked⟩
    · rintro ⟨same, checked⟩
      obtain rfl := Except.ok.inj same
      exact ⟨checked, rfl⟩

theorem parseSource_host {input : Text} {url : Url} (parsed : parseSource platform input = .ok url) :
    HostForm url.hostname := by
  unfold parseSource at parsed
  dsimp only at parsed
  split at parsed
  · cases parsed
  · split at parsed
    · cases parsed
    · split at parsed
      · cases parsed
      · rename_i found same
        split at parsed
        · cases parsed
        · rename_i secure
          have https := not_not.mp secure
          split at parsed
          · cases parsed
          · split at parsed
            · cases parsed
            · obtain rfl := Except.ok.inj parsed
              exact platform.hosts _ _ _ same https

theorem withoutDot_dots (single : ¬ [dot, dot] <:+ host) : withoutDots host = withoutDot host := by
  cases host using List.reverseRecOn with
  | nil => rfl
  | append_singleton host last =>
    by_cases ended : last = dot
    · have front : host.getLast? ≠ some dot := by
        intro again
        obtain ⟨front, rfl⟩ := getLast?_eq_some_iff.mp again
        refine single ⟨front, ?_⟩
        rw [ended, append_assoc]
        rfl
      rw [ended, withoutDots_dot, withoutDots_named front, withoutDot, if_pos getLast?_concat,
        dropLast_concat]
    · have plain : (host ++ [last]).getLast? ≠ some dot := by
        rw [getLast?_concat]
        exact fun same => ended (Option.some.inj same)
      rw [withoutDots_named plain, withoutDot, if_neg plain]

theorem checked_not_barred (form : HostForm host) (single : ¬ [dot, dot] <:+ host)
    (checked : checkHost (withoutDot host) = .ok ()) : ¬ Barred (withoutDots host) := by
  have same := withoutDot_dots single
  obtain ⟨⟨colon, form4⟩, other, free, labels⟩ := checkHost_ok.mp checked
  rw [← same] at colon form4 other free labels
  have domain : readIpv4 (withoutDots host) = none := by
    cases form with
    | ipv4 first second third fourth =>
      have ended := ipv4Dotted_ended (ipv4Dotted_dotted first second third fourth)
      rw [withoutDots_named ended, ipv4Dotted_dotted] at form4
      cases form4
    | @ipv6 inner inside =>
      have ended : (91 :: (inner ++ [93])).getLast? ≠ some dot := by
        rw [← cons_append, getLast?_concat]
        decide
      rw [withoutDots_named ended] at colon
      exact absurd (mem_cons_of_mem _ (mem_append_left _ inside)) colon
    | domain plain named =>
      refine readIpv4_none ?_
      by_cases ended : host.getLast? = some dot
      · obtain ⟨front, rfl⟩ := getLast?_eq_some_iff.mp ended
        have filled : withoutDots (front ++ [dot]) ≠ [] := by
          intro nothing
          rw [nothing] at labels
          cases labels
        have shape : front = withoutDots (front ++ [dot]) := by
          rw [same, withoutDot, if_pos ended, dropLast_concat]
        have last := withoutDots_ended (front ++ [dot])
        rw [← shape] at filled last ⊢
        rwa [endsInNumber_dot filled last] at named
      · rwa [withoutDots_named ended]
  rintro (here | address | address | ⟨suffix, listed, under⟩ | few)
  · exact other here
  · exact colon address
  · rw [domain] at address
    cases address
  · exact free suffix listed under
  · exact absurd ((parts_two _).mpr labels) (Nat.not_le.mpr few)

theorem dots_pass (form : HostForm host) (dots : [dot, dot] <:+ host) : checkHost (withoutDot host) = .ok () := by
  obtain ⟨front, shape⟩ := dots
  have host_eq : host = (front ++ [dot]) ++ [dot] := by
    rw [← shape, append_assoc]
    rfl
  have left : withoutDot host = front ++ [dot] := by
    rw [host_eq, withoutDot, if_pos getLast?_concat, dropLast_concat]
  have ended : (front ++ [dot]).getLast? = some dot := getLast?_concat
  have colon : 58 ∉ host := by
    cases form with
    | ipv4 first second third fourth =>
      have last := ipv4Dotted_ended (ipv4Dotted_dotted first second third fourth)
      rw [host_eq, getLast?_concat] at last
      exact absurd rfl last
    | @ipv6 inner inside =>
      have last := congrArg List.getLast? host_eq
      rw [← cons_append, getLast?_concat, getLast?_concat] at last
      exact absurd last (by decide)
    | domain plain named => exact plain
  rw [left]
  refine checkHost_ok.mpr ⟨⟨?_, ?_⟩, ?_, ?_, ?_⟩
  · rw [host_eq] at colon
    exact fun inside => colon (mem_append_left _ inside)
  · by_contra form4
    exact ipv4Dotted_ended (by simpa using form4) ended
  · intro same
    rw [same] at ended
    exact absurd ended (by decide)
  · intro suffix listed under
    have last : ∀ suffix ∈ blockedSuffixes, suffix ≠ [] ∧ suffix.getLast? ≠ some dot := by decide
    obtain ⟨before, same⟩ := under
    obtain ⟨filled, different⟩ := last suffix listed
    rw [← same, getLast?_append_of_ne_nil _ filled] at ended
    exact different ended
  · exact mem_append_right _ mem_cons_self

end

def Streamed (response : Response) (bytes : List UInt8) : Prop :=
  (response.body = none ∧ bytes = []) ∨
    ∃ (reads : List Read) (chunks : List (List UInt8)) (rest : List Chunk), response.body = some reads ∧
      reads.map (·.result) = chunks.map Chunk.chunk ++ Chunk.done :: rest ∧ bytes = chunks.flatten

/-- What a capture keeps to: it asks only for accepted URLs, four times at most, and returns what the
    last response streamed, in order and within the limit. -/
structure Guarded (platform : Platform) (hops : List Hop) (run : List Url × Outcome CapturedUrl) : Prop where
  accepted : ∀ url ∈ run.1, ∃ text, validateSourceUrl platform text = .ok url
  requests : run.1.length ≤ 4
  streamed : ∀ captured, run.2 = .done captured → captured.bytes.length ≤ maxBytes ∧
    ∃ hop ∈ hops, ∃ response, hop.answer = .response response ∧ Streamed response captured.bytes

theorem receive_streamed {platform : Platform} {startedAt : Int} {current : Url} {response : Response}
    {captured : CapturedUrl} (done : receive platform startedAt current response = .done captured) :
    captured.bytes.length ≤ maxBytes ∧ Streamed response captured.bytes := by
  unfold receive at done
  dsimp only at done
  split at done
  · cases done
  · split at done
    · cases done
    · split at done
      · rename_i none
        injection done with same
        have empty : captured.bytes = [] := by rw [← same, joinChunks_flatten, flatten_nil]
        exact ⟨by rw [empty]; exact Nat.zero_le _, .inl ⟨none, empty⟩⟩
      · rename_i reads body
        split at done
        · rename_i chunks read
          injection done with same
          obtain ⟨bounded, rest, shape⟩ := readChunks_done (Nat.zero_le _) read
          have bytes : captured.bytes = chunks.flatten := by rw [← same, joinChunks_flatten]
          rw [Nat.zero_add, ← bytes] at bounded
          exact ⟨bounded, .inr ⟨reads, chunks, rest, body, shape, bytes⟩⟩
        · cases done
        · cases done

theorem captureUrl_keeps (platform : Platform) (input : Text) (startedAt : Int) (hops : List Hop) :
    Guarded platform hops (captureUrl platform input startedAt hops) := by
  unfold captureUrl
  split
  · exact ⟨by simp, Nat.zero_le _, by simp⟩
  · rename_i current accepted
    obtain ⟨count, urls, last⟩ := @followRedirects_requests platform startedAt hops 0 current (Nat.zero_le _)
    refine ⟨?_, count, ?_⟩
    · intro url listed
      rcases urls url listed with rfl | known
      · exact ⟨input, accepted⟩
      · exact known
    · intro captured done
      dsimp only at done
      split at done
      · rename_i final response followed
        obtain ⟨hop, listed, answer⟩ := last final response followed
        obtain ⟨bounded, streamed⟩ := receive_streamed done
        exact ⟨bounded, hop, listed, response, answer, streamed⟩
      · cases done
      · cases done

/-- A capture contacts accepted hosts only, and what is accepted is not barred unless a barred name
    stands before two dots or more. -/
theorem captureUrl_guarded (platform : Platform) (input : Text) :
    ((∀ startedAt hops, Guarded platform hops (captureUrl platform input startedAt hops)) ∧
      ∀ url, validateSourceUrl platform input = .ok url → ¬ Barred (withoutDots url.hostname)) ↔
    ¬ ∃ url, parseSource platform input = .ok url ∧ [dot, dot] <:+ url.hostname ∧ Barred (withoutDots url.hostname) := by
  constructor
  · rintro ⟨-, free⟩ ⟨url, parsed, dots, barred⟩
    have passed := dots_pass (parseSource_host parsed) dots
    exact free url (validateSourceUrl_ok.mpr ⟨parsed, passed⟩) barred
  · intro clean
    refine ⟨captureUrl_keeps platform input, ?_⟩
    intro url accepted
    obtain ⟨parsed, checked⟩ := validateSourceUrl_ok.mp accepted
    by_cases dots : [dot, dot] <:+ url.hostname
    · exact fun barred => clean ⟨url, parsed, dots, barred⟩
    · exact checked_not_barred (parseSource_host parsed) dots checked

def oneUrl : Url where
  href := prose "https://localhost../" rfl
  protocol := prose "https:" rfl
  username := []
  password := []
  port := []
  hostname := prose "localhost.." rfl
  host := prose "localhost.." rfl
  pathname := prose "/" rfl

def onePlatform : Platform where
  parse := fun input _ => if input = prose "https://localhost../" rfl then some oneUrl else none
  hosts := by
    intro input base url parsed _
    split at parsed
    · obtain rfl := Option.some.inj parsed
      exact .domain (by decide) (by decide)
    · cases parsed
  above := fun _ _ => false
  decodeUri := some
  lower := id

/-- This machine is contacted under a name with two dots behind it. -/
theorem captureUrl_localhost : ¬ ∀ url, validateSourceUrl onePlatform (prose "https://localhost../" rfl) = .ok url →
    ¬ Barred (withoutDots url.hostname) := by
  intro free
  have accepted : validateSourceUrl onePlatform (prose "https://localhost../" rfl) = .ok oneUrl := by decide
  have here : withoutDots oneUrl.hostname = prose "localhost" rfl := by decide
  exact free oneUrl accepted (.inl here)

end Capture
