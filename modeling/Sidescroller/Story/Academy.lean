import Sidescroller.Story.Script

/-!
# The story of the academy

The script that comes with the game: what the six people of the campus have to say, in the order in
which the chapters lead to them. The braces in the first text are the student's placeholder.
-/

namespace Sidescroller.Story

namespace Academy

/-- An answer that leads on, and what is gained by it. -/
def leading (text next : String) (consequence : Option String := none) : Choice :=
  ⟨text, some next, consequence⟩

/-- An answer that ends the conversation, and what is gained by it. -/
def parting (text : String) (consequence : Option String := none) : Choice :=
  ⟨text, none, consequence⟩

/-- What Principal Weems has to say. -/
def weems : List Node :=
  [ { id := "intro_welcome"
      speaker := "Principal Weems"
      text := "Welcome to Nevermore Academy, \x7bname\x7d. The campus senses potential swirling around you. Are you ready to embrace your legacy?"
      choices :=
        [leading "I was born ready." "weems_orientation" (some "confidence"),
          leading "I'm mostly here for answers." "weems_answers" (some "curiosity")]
      grantsItem := some "Student Crest"
      emotion := some "warm" },
    { id := "weems_orientation"
      speaker := "Principal Weems"
      text := "Confidence is admired, but remember: hubris feeds the Hyde. Collect your schedule from Enid before classes begin."
      choices :=
        [leading "Where can I find her?" "enid_hint",
          parting "Consider it done."] },
    { id := "weems_answers"
      speaker := "Principal Weems"
      text := "Answers come with a price. Enid Sinclair holds your dorm key. She is incapable of keeping secrets; use that."
      choices :=
        [parting "I'll head out.",
          leading "Any other warnings?" "weems_warning"] },
    { id := "weems_warning"
      speaker := "Principal Weems"
      text := "Stay away from the Nightshade Library after curfew. Its books whisper to those who listen, and they will call your name soon enough."
      choices :=
        [parting "Noted."] },
    { id := "enid_hint"
      speaker := "Principal Weems"
      text := "She decorates the courtyard steps with glitter every full moon. Follow the sparkles."
      choices :=
        [parting "Thanks."] }]

/-- What Enid has to say. -/
def enid : List Node :=
  [ { id := "enid_room"
      speaker := "Enid"
      text := "Roomie! I already picked out bunks. You're top bunk because it has better moonlight selfies. What's your vibe tonight?"
      choices :=
        [leading "Excited to explore." "enid_explore",
          leading "Nervous about fitting in." "enid_reassure",
          leading "Hoping to understand my visions." "enid_visions"]
      grantsItem := some "Dorm Key" },
    { id := "enid_explore"
      speaker := "Enid"
      text := "Then we totally have to sneak to the greenhouse. Ajax says the vines sing when the stars align. Tonight!"
      choices :=
        [parting "Lead the way!"] },
    { id := "enid_reassure"
      speaker := "Enid"
      text := "Hey, everyone here is freaky in their own way. That's our charm. Come decorate the dorm with me after you grab your schedule."
      choices :=
        [parting "Thanks, Enid."] },
    { id := "enid_visions"
      speaker := "Enid"
      text := "Visions? Okay, that's intense. Wednesday might have advice, if she graces us with words longer than three syllables."
      choices :=
        [parting "I'll talk to her soon."] }]

/-- What Ajax has to say. -/
def ajax : List Node :=
  [ { id := "ajax_greenhouse"
      speaker := "Ajax"
      text := "These vines won't chill. They keep spelling ominous messages. Can you try communing with them?"
      choices :=
        [leading "Touch the vines." "ajax_touch" (some "vine_whisper"),
          leading "Cast a calming charm." "ajax_charm" (some "calming_aura")] },
    { id := "ajax_touch"
      speaker := "Ajax"
      text := "Whoa, they like you! They spelled 'PROTECT THE RAVEN'. Creepy, but encouraging?"
      choices :=
        [parting "What raven?",
          parting "I'll stay alert."] },
    { id := "ajax_charm"
      speaker := "Ajax"
      text := "Your aura soothed them. They braided themselves into a shield around the greenhouse door. You're kind of a big deal."
      choices :=
        [parting "Glad to help."] }]

/-- What Yoko has to say. -/
def yoko : List Node :=
  [ { id := "yoko_duel"
      speaker := "Yoko"
      text := "Nightshade trials start at dusk. Show me how you stand your ground."
      choices :=
        [leading "Ready to spar." "yoko_spar" (some "duelist"),
          leading "I'd rather strategize." "yoko_strategy" (some "tactician")] },
    { id := "yoko_spar"
      speaker := "Yoko"
      text := "Fast reflexes. If you ever need backup, call me. Gorgons owe their allies a favor. Petrifyingly useful."
      choices :=
        [parting "Appreciated."] },
    { id := "yoko_strategy"
      speaker := "Yoko"
      text := "Smart. Nightshades respect brains. Come to the library tonight; we'll chart the prophecy before it charts us."
      choices :=
        [parting "I'll be there."] }]

/-- What Wednesday has to say. -/
def wednesday : List Node :=
  [ { id := "wednesday_pact"
      speaker := "Wednesday"
      text := "Visions haunt me too. Mine sharpen with pain. Yours?"
      choices :=
        [leading "Mine respond to music." "wednesday_music" (some "melody_focus"),
          leading "They're triggered by danger." "wednesday_danger" (some "danger_sense"),
          leading "I haven't mastered them yet." "wednesday_uncertain"]
      grantsItem := some "Raven Sigil" },
    { id := "wednesday_music"
      speaker := "Wednesday"
      text := "Interesting. The Hyde once hummed a funeral dirge before attacks. I'll ask Thing to steal sheet music from the conservatory."
      choices :=
        [parting "Thank you?"] },
    { id := "wednesday_danger"
      speaker := "Wednesday"
      text := "Then we invite danger. Meet me at the Nightshade library after midnight. Bring salt and resolve."
      choices :=
        [parting "I'll be ready."] },
    { id := "wednesday_uncertain"
      speaker := "Wednesday"
      text := "Doubt is a parasite. We'll excise it together. Don't be late tonight."
      choices :=
        [parting "Understood."] }]

/-- What Bianca has to say. -/
def bianca : List Node :=
  [ { id := "bianca_finale"
      speaker := "Bianca"
      text := "The prophecy threads converge on you. Choose how Nevermore stands: melody, danger, or secrets?"
      choices :=
        [leading "Let music bind the students." "final_music",
          leading "Prepare for the coming danger." "final_danger",
          leading "Guard the secrets of the Nightshades." "final_secret"] }]

/-- What Narrator has to say. -/
def narrator : List Node :=
  [ { id := "final_music"
      speaker := "Narrator"
      text := "You orchestrate a midnight symphony. The Hyde, lulled by harmony, slumbers. Nevermore thrives in shared melody."
      choices :=
        [parting "Live the encore."] },
    { id := "final_danger"
      speaker := "Narrator"
      text := "You and Wednesday forge a pact of vigilance. The prophecy becomes a warning etched into the academy's crest."
      choices :=
        [parting "Stand guard."] },
    { id := "final_secret"
      speaker := "Narrator"
      text := "Knowledge is your shield. In hidden archives you safeguard the Nightshade tomes, shaping destiny through secrecy."
      choices :=
        [parting "Guard the archives."] }]

/-- The chapters: each of the six people ends one. -/
def outline : Outline where
  initial := "orientation"
  milestones :=
    ["intro_welcome", "enid_room", "ajax_greenhouse", "yoko_duel",
      "wednesday_pact", "bianca_finale"]
  labels := ["roommate", "greenhouse", "duel", "pact", "finale"]
  objectives :=
    [("orientation", "Check in with Principal Weems in the courtyard."),
      ("roommate", "Find your dorm room with Enid."),
      ("greenhouse", "Help Ajax calm the sentient vines."),
      ("duel", "Train with Yoko for the Nightshade trials."),
      ("pact", "Discuss your visions with Wednesday."),
      ("finale", "Confront the creeping prophecy with Bianca.")]
  fallbackObjective := "Explore Nevermore."

end Academy

/-- The story of the academy. -/
def academy : Script where
  outline := Academy.outline
  nodes :=
    Academy.weems ++ Academy.enid ++ Academy.ajax ++ Academy.yoko ++ Academy.wednesday
      ++ Academy.bianca ++ Academy.narrator

end Sidescroller.Story
