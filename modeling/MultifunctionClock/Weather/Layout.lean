import MultifunctionClock.Lib.Writes
import MultifunctionClock.Weather.Fetch

/-! The weather texts that survive the three writes into a message. -/

namespace MultifunctionClock

open Bytes

/-- The writes of the three `sprintf` calls, when all three items are strings. -/
def weatherWrites (texts : WeatherTexts) : List Write :=
  [⟨MesgWeather.name.offset, texts.name ++ [0]⟩, ⟨MesgWeather.weather.offset, texts.weather ++ [0]⟩,
    ⟨MesgWeather.temp.offset, texts.temp ++ [0]⟩]

/-- The message is filled by these writes. -/
theorem fillMesgWeather_eq_apply (texts : WeatherTexts) (mes : Bytes) :
    fillMesgWeather texts.report mes = apply (weatherWrites texts) mes := rfl

/-- The writes stay inside the message exactly when each text ends in front of its end. -/
theorem within_weatherWrites_iff (texts : WeatherTexts) :
    Within MesgWeather.size (weatherWrites texts) ↔
    texts.name.length ≤ 33 ∧ texts.weather.length ≤ 17 ∧ texts.temp.length ≤ 5 := by
  -- Each write ends with the terminator of its text.
  simp only [Within, weatherWrites, List.mem_cons, List.not_mem_nil, or_false, forall_eq_or_imp,
    forall_eq, List.length_append, List.length_singleton, MesgWeather.name, MesgWeather.weather,
    MesgWeather.temp, MesgWeather.size]
  omega

/--
A text is drawn whole exactly when it has a terminator, or when its end is what follows the array.
-/
theorem drawn_eq_iff {text next : Bytes} {size : ℕ} :
    (if text.length < size then text else text.take size ++ next) = text ↔
      text.length < size ∨ text.drop size = next := by
  split
  · rename_i room
    simp [room]
  · -- Both sides begin with the part inside the array.
    rename_i long
    have parts : text.take size ++ text.drop size = text := List.take_append_drop size text
    constructor
    · intro drawn
      exact .inr (List.append_cancel_left (parts.trans drawn.symm))
    · rintro (room | rest)
      · exact absurd room long
      · rw [← rest, parts]

/--
Three texts survive a message exactly when each of them fits its array or ends in the next text.

The memory behind the message is then untouched, and the strings that are drawn are the three texts.
-/
theorem weatherMessage_exact_iff {texts : WeatherTexts} (plain : texts.Plain)
    (mes : MesgWeather.Block) (behind : Bytes) :
    Within MesgWeather.size (weatherWrites texts) ∧
        readWeather (fillMesgWeather texts.report (mes ++ behind)) = texts ↔
      (texts.name.length < 16 ∨ texts.name.drop 16 = texts.weather) ∧
        (texts.weather.length < 12 ∨ texts.weather.drop 12 = texts.temp) ∧
        texts.temp.length < 6 := by
  have block : MesgWeather.size ≤ (mes.val ++ behind).length := by simp [mes.property]
  rw [readWeather_fill_eq plain block, within_weatherWrites_iff, WeatherTexts.ext_iff]
  -- The name runs on into the weather as it is drawn, so the weather is settled first.
  have running : (drawnTexts texts).name = if texts.name.length < 16 then texts.name
      else texts.name.take 16 ++ (drawnTexts texts).weather := rfl
  constructor
  · rintro ⟨⟨-, -, room⟩, name, weather, -⟩
    rw [running, weather] at name
    exact ⟨drawn_eq_iff.mp name, drawn_eq_iff.mp weather, by omega⟩
  · rintro ⟨name, weather, room⟩
    have weatherDrawn : (drawnTexts texts).weather = texts.weather := drawn_eq_iff.mpr weather
    have nameDrawn : (drawnTexts texts).name = texts.name := by
      rw [running, weatherDrawn]
      exact drawn_eq_iff.mpr name
    -- A text that ends in the next one is longer than it by the size of its array.
    have weatherLength : texts.weather.length ≤ 17 := by
      rcases weather with short | ending
      · omega
      · have length := congrArg List.length ending
        rw [List.length_drop] at length
        omega
    have nameLength : texts.name.length ≤ 33 := by
      rcases name with short | ending
      · omega
      · have length := congrArg List.length ending
        rw [List.length_drop] at length
        omega
    exact ⟨⟨nameLength, weatherLength, by omega⟩, nameDrawn, weatherDrawn, rfl⟩

/-- The strings of a sunny day survive. -/
theorem weatherMessage_exact_sunny : sunnyTexts.Plain ∧
    Within MesgWeather.size (weatherWrites sunnyTexts) ∧
      readWeather (fillMesgWeather sunnyTexts.report (List.replicate 34 7 ++ [1, 2, 3])) =
        sunnyTexts := by
  -- Each of them is shorter than its array.
  have fits := sunnyTexts_fits
  have plain : sunnyTexts.Plain := ⟨fits.name_plain, fits.weather_plain, fits.temp_plain⟩
  exact ⟨plain, (weatherMessage_exact_iff plain ⟨List.replicate 34 7, rfl⟩ [1, 2, 3]).mpr
    ⟨.inl (by decide), .inl (by decide), by decide⟩⟩

/-- The strings of a thunder shower, whose name has thirteen letters. -/
def showerTexts : WeatherTexts where
  name := ofText "Nanyang".toList
  weather := ofText "Thundershower".toList
  temp := ofText "25".toList

/-- The shower loses its last letter to the temperature and runs on into it. -/
theorem weatherMessage_shower : showerTexts.Plain ∧
    Within MesgWeather.size (weatherWrites showerTexts) ∧
    readWeather (fillMesgWeather showerTexts.report (List.replicate 34 0)) =
      { showerTexts with weather := ofText "Thundershowe25".toList } ∧
    readWeather (fillMesgWeather showerTexts.report (List.replicate 34 0)) ≠ showerTexts :=
  ⟨⟨plain_of_all (by decide), plain_of_all (by decide), plain_of_all (by decide)⟩, by
    decide, by decide,
    by decide⟩

end MultifunctionClock
