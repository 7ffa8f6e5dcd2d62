import Agora.Number.Digits
/-!
What a user wrote stands in a sentence in double quotes, with its own quotes and backslashes
escaped, so that it reads as one value.
-/
namespace Agora

def quoteChars (s : List Char) : List Char :=
  '\x22' :: s.flatMap (fun c => if c = '\x22' || c = '\x5c' then ['\x5c', c] else [c]) ++ ['\x22']

def quote (s : String) : String :=
  String.ofList (quoteChars s.toList)

inductive Intent where
  | findVote (message user : Int64)
  | insertVote (message user value : Int64)
  | updateVote (message user value : Int64)
  | deleteVote (message user : Int64)
  | findReaction (message user : Int64) (emoji : String)
  | insertReaction (message user : Int64) (emoji : String)
  | deleteReaction (message user : Int64) (emoji : String)
  | createMessage (user : Int64) (title content : String)
  | messageDetail (message : Int64) (viewer : Option Int64)
  | addComment (message user : Int64) (content : String)
  | findUser (username : String)
  | createUser (username email passwordHash : String)
  | userMessages (user : Int64)
  deriving DecidableEq, Repr

namespace Intent

def number (i : Int64) : String :=
  String.ofList (Digits.ofInt64 i)

def viewerText : Option Int64 → String
  | none => "NULL"
  | some i => number i

def text : Intent → String
  | findVote message user =>
      "Get the vote where messageId is " ++ number message ++ " and userId is " ++ number user
        ++ "."
  | insertVote message user value =>
      "Insert a vote with messageId " ++ number message ++ ", userId " ++ number user
        ++ ", and value " ++ number value ++ "."
  | updateVote message user value =>
      "Update the vote where messageId is " ++ number message ++ " and userId is " ++ number user
        ++ ": set value to " ++ number value ++ "."
  | deleteVote message user =>
      "Delete the vote where messageId is " ++ number message ++ " and userId is " ++ number user
        ++ "."
  | findReaction message user emoji =>
      "Get the reaction where messageId is " ++ number message ++ ", userId is " ++ number user
        ++ ", and emoji is " ++ quote emoji ++ "."
  | insertReaction message user emoji =>
      "Insert a reaction with messageId " ++ number message ++ ", userId " ++ number user
        ++ ", and emoji " ++ quote emoji ++ "."
  | deleteReaction message user emoji =>
      "Delete the reaction where messageId is " ++ number message ++ ", userId is " ++ number user
        ++ ", and emoji is " ++ quote emoji ++ "."
  | createMessage user title content =>
      "Insert a new message with userId " ++ number user ++ ", title " ++ quote title
        ++ ", and content " ++ quote content ++ ". Return the id. "
        ++ "If the title or content is hateful, harassing or malicious, "
        ++ "store \"Don't be mean\" as both the title and the content instead."
  | messageDetail message viewer =>
      "Get the message with id " ++ number message
        ++ " as a single row with its id, title, content and \"createdAt\", plus:\n"
        ++ "- the author's username from users as \"username\"\n"
        ++ "- the vote total (COALESCE of the sum of votes.value, 0) as \"voteCount\"\n"
        ++ "- the value of the vote cast by userId " ++ viewerText viewer
        ++ " as \"userVote\", NULL if there is none\n"
        ++ "- a JSON array of its comments (each with id, content, \"createdAt\" and "
        ++ "the commenter's username), oldest first, as \"comments\"\n"
        ++ "- a JSON array of its reactions grouped by emoji "
        ++ "(each object has emoji and count) as \"reactions\"\n"
        ++ "- a JSON array of the emoji strings userId " ++ viewerText viewer
        ++ " reacted with as \"userReactions\""
  | addComment message user content =>
      "Insert a new comment with messageId " ++ number message ++ ", userId " ++ number user
        ++ ", and content " ++ quote content ++ "."
  | findUser username =>
      "Get the user whose username is " ++ quote username
        ++ ". Return id, username, and \"createdAt\"."
  | createUser username email passwordHash =>
      "Insert a new user with username " ++ quote username ++ ", email " ++ quote email
        ++ ", and \"passwordHash\" " ++ quote passwordHash ++ ". Return id and username."
  | userMessages user =>
      "Get all messages where userId is " ++ number user
        ++ " with id, title, content, \"createdAt\", the vote total "
        ++ "(COALESCE of the sum of votes.value, 0) as \"voteCount\" and "
        ++ "the number of comments as \"commentCount\". Order by \"createdAt\" descending."

end Intent

end Agora
