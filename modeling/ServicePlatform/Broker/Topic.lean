import Mathlib.Data.List.Infix

/-! Keys of a topic exchange. A key is a list of words between dots; in a
binding key the word `*` stands for one word and `#` for any number of them. -/
namespace Broker

inductive TopicWord where
  | exactly (word : List Char)
  | one
  | many
  deriving DecidableEq

/-- The words of a key. The empty key has none. -/
def keyWords (key : String) : List (List Char) := if key = "" then [] else key.toList.splitOn '.'

def TopicWord.ofWord (word : List Char) : TopicWord :=
  if word = ['*'] then .one else if word = ['#'] then .many else .exactly word

/-- The pattern accepts the words. -/
def wordsMatch : List TopicWord → List (List Char) → Bool
  | [], words => words.isEmpty
  | .exactly _ :: _, [] => false
  | .exactly expected :: pattern, word :: words => expected = word && wordsMatch pattern words
  | .one :: _, [] => false
  | .one :: pattern, _ :: words => wordsMatch pattern words
  | .many :: pattern, words => words.tails.any (wordsMatch pattern)

/-- The binding key matches the routing key. -/
def topicMatches (bindingKey routingKey : String) : Bool :=
  wordsMatch ((keyWords bindingKey).map TopicWord.ofWord) (keyWords routingKey)

theorem wordsMatch_self (words : List (List Char)) :
    wordsMatch (words.map TopicWord.ofWord) words = true := by
  induction words with
  | nil => rfl
  | cons word words ih =>
      rw [List.map_cons]
      by_cases hOne : word = ['*']
      · have hWord : TopicWord.ofWord word = .one := if_pos hOne
        rw [hWord]
        exact ih
      · by_cases hMany : word = ['#']
        · have hWord : TopicWord.ofWord word = .many := by simp [TopicWord.ofWord, hMany]
          rw [hWord]
          apply List.any_eq_true.mpr
          exact ⟨words, (List.mem_tails _ _).mpr (List.suffix_cons word words), ih⟩
        · have hWord : TopicWord.ofWord word = .exactly word := by simp [TopicWord.ofWord, hOne, hMany]
          rw [hWord]
          simpa [wordsMatch] using ih

/-- Whatever its words are, a key matches itself. -/
theorem topicMatches_self (key : String) : topicMatches key key = true := wordsMatch_self _

end Broker
