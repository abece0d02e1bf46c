/-!
# The sample tree

A tree that the editor brings along: a tavern with a barkeep, a rumor and a captain of the guard.
-/

namespace Dialogue.Editor

def sampleLines : List String := [
  "\x7b",
  "  \"name\": \"The Rusty Flagon\",",
  "  \"characters\": \x7b",
  "    \"petra\": \x7b",
  "      \"name\": \"Petra\",",
  "      \"defaultEmotion\": \"neutral\",",
  "      \"portraits\": \x7b",
  "        \"neutral\": \"portraits/petra_neutral.png\",",
  "        \"happy\": \"portraits/petra_happy.png\",",
  "        \"suspicious\": \"portraits/petra_suspicious.png\"",
  "      \x7d",
  "    \x7d,",
  "    \"hale\": \x7b",
  "      \"name\": \"Captain Hale\",",
  "      \"defaultEmotion\": \"neutral\",",
  "      \"portraits\": \x7b",
  "        \"neutral\": \"portraits/hale_neutral.png\",",
  "        \"angry\": \"portraits/hale_angry.png\"",
  "      \x7d",
  "    \x7d",
  "  \x7d,",
  "  \"startNodeId\": \"welcome\",",
  "  \"nodes\": \x7b",
  "    \"welcome\": \x7b",
  "      \"id\": \"welcome\",",
  "      \"character\": \"petra\",",
  "      \"speaker\": \"Petra\",",
  "      \"text\": \"Welcome to the [b]Rusty Flagon[/b], stranger. You look like you have \x7b$$gold\x7d gold to spend.\",",
  "      \"emotion\": \"neutral\",",
  "      \"alternateTexts\": [",
  "        \x7b",
  "          \"text\": \"Back again? [i]Still[/i] carrying \x7b$$gold\x7d gold, I see.\",",
  "          \"emotion\": \"happy\",",
  "          \"prerequisites\": \x7b \"requiredFlags\": [\"met_petra\"] \x7d",
  "        \x7d",
  "      ],",
  "      \"choices\": [",
  "        \x7b",
  "          \"id\": \"buy_drink\",",
  "          \"text\": \"Buy a drink (2 gold)\",",
  "          \"nextNodeId\": \"drink\",",
  "          \"prerequisites\": \x7b",
  "            \"stateConditions\": [\x7b \"key\": \"gold\", \"operator\": \">=\", \"value\": 2 \x7d]",
  "          \x7d,",
  "          \"flagChanges\": \x7b \"add\": [\"met_petra\", \"tipsy\"] \x7d,",
  "          \"stateChanges\": [\x7b \"key\": \"gold\", \"value\": 2, \"operation\": \"subtract\" \x7d]",
  "        \x7d,",
  "        \x7b",
  "          \"id\": \"ask_rumors\",",
  "          \"text\": \"Heard any rumors?\",",
  "          \"nextNodeId\": \"rumors\",",
  "          \"flagChanges\": \x7b \"add\": [\"met_petra\"] \x7d,",
  "          \"alternateDestinations\": [",
  "            \x7b \"nextNodeId\": \"loose_lips\", \"prerequisites\": \x7b \"requiredFlags\": [\"tipsy\"] \x7d \x7d,",
  "            \x7b \"nextNodeId\": \"rumors\", \"prerequisites\": \x7b\x7d \x7d",
  "          ]",
  "        \x7d,",
  "        \x7b",
  "          \"id\": \"browse\",",
  "          \"text\": \"Show me what you're selling.\",",
  "          \"nextNodeId\": \"\",",
  "          \"exit\": \x7b \"status\": \"shop\" \x7d",
  "        \x7d,",
  "        \x7b",
  "          \"id\": \"leave\",",
  "          \"text\": \"Goodbye.\",",
  "          \"nextNodeId\": \"\",",
  "          \"exit\": \x7b \"status\": \"leave\" \x7d",
  "        \x7d",
  "      ]",
  "    \x7d,",
  "    \"drink\": \x7b",
  "      \"id\": \"drink\",",
  "      \"character\": \"petra\",",
  "      \"speaker\": \"Petra\",",
  "      \"text\": \"Here you go. The [color=amber]finest ale[/color] in town.\",",
  "      \"emotion\": \"happy\",",
  "      \"choices\": [",
  "        \x7b \"id\": \"thanks\", \"text\": \"Thanks.\", \"nextNodeId\": \"welcome\" \x7d",
  "      ]",
  "    \x7d,",
  "    \"rumors\": \x7b",
  "      \"id\": \"rumors\",",
  "      \"character\": \"petra\",",
  "      \"speaker\": \"Petra\",",
  "      \"text\": \"I don't gossip with strangers.\",",
  "      \"emotion\": \"suspicious\",",
  "      \"choices\": [",
  "        \x7b",
  "          \"id\": \"bribe\",",
  "          \"text\": \"Slide over 5 gold.\",",
  "          \"nextNodeId\": \"loose_lips\",",
  "          \"prerequisites\": \x7b",
  "            \"blockedFlags\": [\"guard_watching\"],",
  "            \"stateConditions\": [\x7b \"key\": \"gold\", \"operator\": \">=\", \"value\": 5 \x7d]",
  "          \x7d,",
  "          \"stateChanges\": [",
  "            \x7b \"key\": \"gold\", \"value\": 5, \"operation\": \"subtract\" \x7d,",
  "            \x7b \"key\": \"reputation\", \"value\": 1, \"operation\": \"add\" \x7d",
  "          ]",
  "        \x7d,",
  "        \x7b \"id\": \"never_mind\", \"text\": \"Never mind.\", \"nextNodeId\": \"welcome\" \x7d",
  "      ]",
  "    \x7d,",
  "    \"loose_lips\": \x7b",
  "      \"id\": \"loose_lips\",",
  "      \"character\": \"petra\",",
  "      \"speaker\": \"Petra\",",
  "      \"text\": \"Between us? Captain Hale has been asking about you.\",",
  "      \"emotion\": \"suspicious\",",
  "      \"choices\": [",
  "        \x7b",
  "          \"id\": \"find_hale\",",
  "          \"text\": \"Where is he?\",",
  "          \"nextNodeId\": \"hale\",",
  "          \"flagChanges\": \x7b \"add\": [\"knows_about_hale\"], \"remove\": [\"tipsy\"] \x7d",
  "        \x7d,",
  "        \x7b \"id\": \"back\", \"text\": \"Let's talk about something else.\", \"nextNodeId\": \"welcome\" \x7d",
  "      ]",
  "    \x7d,",
  "    \"hale\": \x7b",
  "      \"id\": \"hale\",",
  "      \"character\": \"hale\",",
  "      \"speaker\": \"Captain Hale\",",
  "      \"text\": \"Halt. State your business.\",",
  "      \"alternateTexts\": [",
  "        \x7b",
  "          \"text\": \"So the barkeep talked. [s]Friendly[/s] chat's over.\",",
  "          \"emotion\": \"angry\",",
  "          \"prerequisites\": \x7b \"requiredFlags\": [\"knows_about_hale\"] \x7d",
  "        \x7d",
  "      ],",
  "      \"choices\": [",
  "        \x7b",
  "          \"id\": \"surrender\",",
  "          \"text\": \"I'll come quietly.\",",
  "          \"nextNodeId\": \"\",",
  "          \"exit\": \x7b \"status\": \"arrested\" \x7d",
  "        \x7d,",
  "        \x7b",
  "          \"id\": \"bolt\",",
  "          \"text\": \"Run for the door!\",",
  "          \"nextNodeId\": \"welcome\",",
  "          \"flagChanges\": \x7b \"add\": [\"guard_watching\"] \x7d,",
  "          \"stateChanges\": [\x7b \"key\": \"reputation\", \"value\": 2, \"operation\": \"subtract\" \x7d]",
  "        \x7d",
  "      ]",
  "    \x7d",
  "  \x7d",
  "\x7d"
]

def sampleText : String := String.join (sampleLines.map (· ++ "\n"))

end Dialogue.Editor
